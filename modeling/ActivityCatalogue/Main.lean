import ActivityCatalogue.CommandLine.Run

/-!
# The program

A run works on a file tree in memory.  Before it, the tree is filled from the
disk as far as the paths of the run reach; after it, what has changed in the
tree is written to the disk.
-/

namespace ActivityCatalogue

namespace CommandLine

/-- The absolute path of a place. -/
def placePath (place : Place) : String := "/" ++ Text.join '/' (place.map FileName.text)

/-- Adds what the disk holds at a place.  The bytes of a file are read if `wanted`. -/
def survey (tree : FileTree) (place : Place) (wanted : Bool) : IO FileTree := do
  if (tree.at? place).isSome then return tree
  try
    let path ← IO.FS.realPath (placePath place)
    if ← path.isDir then return tree.put place .directory
    let content ← if wanted then IO.FS.readBinFile path else pure ByteArray.empty
    return tree.put place (.file content)
  catch _ => return tree

/-- Adds what a directory on the disk holds; of its files only snapshots are read. -/
def surveyDirectory (tree : FileTree) (place : Place) : IO FileTree := do
  try
    let path ← IO.FS.realPath (placePath place)
    (← path.readDir).toList.foldlM (fun tree entry =>
      match Step.ofComponent? entry.fileName with
      | some (.down name) =>
        survey tree (place ++ [name]) (PackageFile.isSnapshot entry.fileName)
      | some .stay | some .up | none => pure tree) tree
  catch _ => return tree

/-- Adds what the disk holds on the way of a route; also gives the place to which
it leads. -/
def surveyRoute (tree : FileTree) (route : Route) : IO (FileTree × Place) :=
  route.steps.foldlM (fun (tree, place) step => do
    match step.next place with
    | .error _ => return (tree, place)
    | .ok next => return (← survey tree next true, next)) (tree, tree.origin route)

/-- Adds what the disk holds on the way of a path, and in the directory to which
it leads or in which it ends. -/
def surveyPath (tree : FileTree) (path : String) : IO FileTree := do
  match Route.ofPath path with
  | .error _ => return tree
  | .ok route =>
    let (tree, place) ← surveyRoute tree route
    if tree.at? place = some .directory then surveyDirectory tree place
    else surveyDirectory tree place.dropLast

/-- The tree with the working directory and nothing else. -/
def startingTree : IO FileTree := do
  match Route.ofPath (← IO.FS.realPath ".").toString with
  | .error _ => return {}
  | .ok route =>
    let (tree, place) ← surveyRoute {} route
    return { tree with workingDirectory := place }

/-- Writes to the disk what has changed in a tree. -/
def settleChanges (before after : FileTree) : IO Unit :=
  after.entries.reverse.forM fun (place, node) => do
    if before.at? place = some node then return
    let path := placePath place
    match node with
    | .directory => IO.FS.createDirAll path
    | .file content =>
      IO.FS.writeBinFile (FileTree.draftPath path) content
      IO.FS.rename (FileTree.draftPath path) path

/-- The paths that a command names. -/
def Command.paths : Command → List String
  | .diff request => request.old :: request.new :: request.extra.toList
  | .print paths => paths

def usage : String :=
  "usage: diff OLD NEW [EXTRA] [--type none|simple|full] [--json]\n" ++
  "       print [PATH]...\n" ++
  "Both take --config PATH and --debug.\n"

end CommandLine

end ActivityCatalogue

open ActivityCatalogue CommandLine in
def main (arguments : List String) : IO UInt32 := do
  match Invocation.ofArguments? arguments with
  | none =>
    IO.eprint usage
    return 2
  | some invocation =>
    let defaultPath := Settings.defaultPath
      { home? := ← IO.getEnv "HOME", data? := ← IO.getEnv "XDG_DATA_HOME" }
    let settingsPath := invocation.settingsPath.getD defaultPath
    let paths := settingsPath :: FileTree.draftPath settingsPath :: invocation.command.paths
    let before ← paths.foldlM surveyPath (← startingTree)
    let outcome := invocation.run before defaultPath
    try settleChanges before outcome.tree catch error => IO.eprintln error
    outcome.transcript.log.forM fun entry =>
      if entry.level.isShown invocation.debug then IO.eprintln entry.line else pure ()
    IO.print outcome.transcript.output
    IO.eprint outcome.errorText
    return outcome.exitCode.toUInt32
