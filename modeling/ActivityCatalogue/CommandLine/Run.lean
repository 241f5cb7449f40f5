import ActivityCatalogue.Codec.Comparison
import ActivityCatalogue.CommandLine.Arguments
import ActivityCatalogue.CommandLine.Session
import ActivityCatalogue.Comparison.Catalogues
import ActivityCatalogue.File.Expansion
import ActivityCatalogue.Json.Writer
import ActivityCatalogue.Listing
import ActivityCatalogue.Report
import ActivityCatalogue.SettingsFile
import ActivityCatalogue.Snapshot.File

/-!
# Running a command

Commands read a file tree.  A file that cannot be loaded is complained of and
adds nothing; the command goes on without it.  A run ends well if it found no
difference and complained of nothing.
-/

namespace ActivityCatalogue

namespace CommandLine

/-- What a command works with. -/
structure Workplace where
  tree : FileTree
  settings : Settings

namespace Workplace

/-! ## Loading -/

/-- The catalogue with the classes of one more snapshot file, if it can be loaded. -/
def addFile (place : Workplace) (catalogue : Catalogue) (path : String) : Session Catalogue := do
  if PackageFile.isSnapshot path then
    let (filled, outcome) ← Session.ofLogged (catalogue.populate (Snapshot.provider place.tree path))
    match outcome with
    | .ok _ => return filled
    | .error fault =>
      Session.complain fault
      return filled
  else
    Session.complain (.unsupportedFile path)
    return catalogue

/-- The catalogue with the classes of several files, in order. -/
def addFiles (place : Workplace) (catalogue : Catalogue) : List String → Session Catalogue
  | [] => pure catalogue
  | path :: rest => do place.addFiles (← place.addFile catalogue path) rest

/-- The catalogue of several files. -/
def load (place : Workplace) (paths : List String) : Session Catalogue :=
  place.addFiles (.ofSettings place.settings) paths

/-! ## Comparing -/

/-- A comparison as a JSON document. -/
def comparisonDocument (old new : List String) (events : List Comparison.Event) : Json :=
  .ofMembers
    [("differences", .natural (Comparison.differenceCount events)),
      ("events", .list ((Comparison.records events).map Comparison.Record.toJson)),
      ("new", .ofTexts new), ("old", .ofTexts old)]

/-- Writes the comparison of two catalogues. -/
def sayComparison (place : Workplace) (request : DiffRequest) (old new : List String)
    (first second : Catalogue) : Session Unit := do
  let events := Comparison.events request.sensitivity first second
  if request.asJson then
    Session.note (Comparison.log request.sensitivity first second fun _ => [])
    Session.say ((comparisonDocument old new events).pretty ++ "\n")
  else
    let style : ReportStyle := ⟨request.sensitivity, place.settings.simplifier⟩
    let report := Report.ofEvents style events
    Session.note (Comparison.log request.sensitivity first second style.warnings)
    Session.say (report.text ++ report.summary old new)

/-- The operation that comparing files is in the log. -/
def diffOperation : String := "diff_files"

/-- Compares a file with one or more other ones; gives the number of differences. -/
def diffFiles (place : Workplace) (request : DiffRequest) (old : String) (new : List String) :
    Session Nat := do
  Session.note [Log.started .diffCommand diffOperation [("path", .text old)]]
  let first ← place.load [old]
  let second ← place.load new
  place.sayComparison request [old] new first second
  let differences := Comparison.differences request.sensitivity first second
  Session.note [Log.finished .diffCommand diffOperation [("differences", .count differences)]]
  return differences

/-- Compares the pairs of two directories and names the other files.  `apart` says
whether an empty line has to come before the next of these. -/
def diffPairs (place : Workplace) (request : DiffRequest) (apart : Bool) :
    List (Aligned String String) → Session Nat
  | [] => pure 0
  | .both old new :: rest => do
    Session.say s!"\ndiff {old} {new}\n"
    let differences ← place.diffFiles request old [new]
    return differences + (← place.diffPairs request true rest)
  | .first old :: rest => do
    Session.say ((if apart then "\n" else "") ++ s!"Only in OLD: {old}\n")
    place.diffPairs request false rest
  | .second new :: rest => do
    Session.say ((if apart then "\n" else "") ++ s!"Only in NEW: {new}\n")
    place.diffPairs request false rest

/-- The fault of a diff of directories with a third path. -/
def thirdPathFault : Fault :=
  (Fault.ofKind .invalidInput).duringOperation "diff"
    |>.saying "A third path cannot be given when comparing directories."

/-- Compares two directories. -/
def diffDirectories (place : Workplace) (request : DiffRequest) : Session Nat := do
  match PackageFile.pairDirectories place.tree request.old request.new with
  | .error fault =>
    Session.complain fault
    return 0
  | .ok pairs => place.diffPairs request true pairs

/-- The request with every path expanded that matches a single file. -/
def expanded (place : Workplace) (request : DiffRequest) : Session DiffRequest := do
  let old ← Session.ofLogged (place.tree.expandSingle request.old)
  let new ← Session.ofLogged (place.tree.expandSingle request.new)
  match request.extra with
  | none => return { request with old, new }
  | some extra =>
    let extra ← Session.ofLogged (place.tree.expandSingle extra)
    return { request with old, new, extra := some extra }

/-- Carries out a diff command; gives the number of differences. -/
def diff (place : Workplace) (request : DiffRequest) : Session Nat := do
  let request ← place.expanded request
  if place.tree.isDirectory request.old && place.tree.isDirectory request.new then
    if request.extra.isSome then
      Session.complain thirdPathFault
      return 0
    else place.diffDirectories request
  else place.diffFiles request request.old (request.new :: request.extra.toList)

/-! ## Listing -/

/-- The files that the paths of a print command stand for; a directory stands for
its snapshot files. -/
def filesToPrint (place : Workplace) : List String → Logged (Except Fault (List String))
  | [] => pure (.ok [])
  | path :: rest => do
    if place.tree.isDirectory path then
      match PackageFile.filesIn place.tree path with
      | .error fault => return .error fault
      | .ok files => return (← place.filesToPrint rest).map (files ++ ·)
    else
      let files ← place.tree.expandAll path
      return (← place.filesToPrint rest).map (files ++ ·)

/-- Carries out a print command. -/
def print (place : Workplace) (paths : List String) : Session Unit := do
  match ← Session.ofLogged (place.filesToPrint paths) with
  | .error fault => Session.complain fault
  | .ok files =>
    let catalogue ← place.load files
    Session.note catalogue.listingLog
    Session.say (catalogue.listing place.settings.simplifier)

/-- Carries out a command; gives the number of differences. -/
def carryOut (place : Workplace) : Command → Session Nat
  | .diff request => place.diff request
  | .print paths => do
    place.print paths
    return 0

end Workplace

/-! ## Whole runs -/

/-- What a run leaves behind. -/
structure Outcome where
  tree : FileTree
  differences : Nat
  transcript : Transcript

/-- Zero for a run that ends well. -/
def Outcome.exitCode (outcome : Outcome) : Nat :=
  if outcome.differences = 0 ∧ outcome.transcript.complaints = [] then 0 else 1

/-- The lines about everything that was complained of. -/
def Outcome.errorText (outcome : Outcome) : String :=
  String.join (outcome.transcript.complaints.map complaint)

/-- Runs an invocation.  `defaultPath` is where the settings lie unless the
invocation tells. -/
def Invocation.run (invocation : Invocation) (tree : FileTree) (defaultPath : String) : Outcome :=
  let loaded := Settings.loadOrCreate tree (invocation.settingsPath.getD defaultPath)
  let (settings, tree) := loaded.value
  let session := Workplace.carryOut ⟨tree, settings⟩ invocation.command
  { tree
    differences := session.value
    transcript := { session.transcript with log := loaded.log ++ session.transcript.log } }

end CommandLine

end ActivityCatalogue
