import ActivityCatalogue.File.Route

/-!
# Reading and changing a file tree

A single change either succeeds or leaves the tree as it is.  Only making
several directories may stop halfway.
-/

namespace ActivityCatalogue

namespace FileTree

/-! ## Asking -/

def pathExists (tree : FileTree) (path : String) : Bool :=
  match tree.find path with
  | .ok _ => true
  | .error _ => false

def isFile (tree : FileTree) (path : String) : Bool :=
  match tree.find path with
  | .ok (.file _) => true
  | .ok .directory | .error _ => false

def isDirectory (tree : FileTree) (path : String) : Bool :=
  match tree.find path with
  | .ok .directory => true
  | .ok (.file _) | .error _ => false

/-- The text of a file. -/
def readText (tree : FileTree) (path : String) : Except FileFailure String := do
  match ← tree.find path with
  | .directory => .error .isDirectory
  | .file content =>
    match String.fromUTF8? content with
    | some text => .ok text
    | none => .error .notText

/-- The names of what a directory holds, in ordinal order. -/
def list (tree : FileTree) (path : String) : Except FileFailure (List String) := do
  let route ← Route.ofPath path
  let place ← tree.locate route
  tree.enter place
  return (tree.namesIn place).map FileName.text

/-! ## Changing -/

/-- Makes a directory at the end of some steps, where nothing may be yet. -/
def makeDirectory (tree : FileTree) (origin : Place) (steps : List Step) :
    Except FileFailure FileTree := do
  let place ← tree.follow origin steps
  match tree.at? place with
  | some _ => .error .alreadyExists
  | none => .ok (tree.put place .directory)

/-- Makes a directory at the end of some steps, unless there is one. -/
def ensureDirectory (tree : FileTree) (origin : Place) (steps : List Step) :
    Except FileFailure FileTree :=
  match tree.makeDirectory origin steps with
  | .ok made => .ok made
  | .error failure =>
    match tree.follow origin steps with
    | .ok place => if tree.at? place = some .directory then .ok tree else .error failure
    | .error _ => .error failure

/-- Makes all missing directories on the way to the end of some steps, which are
given from the last one back.  Also says why it fails, if it does; what was made
before remains. -/
def ensureDirectories (tree : FileTree) (origin : Place) :
    List Step → FileTree × Option FileFailure
  | [] => (tree, none)
  | last :: before =>
    let steps := (last :: before).reverse
    match tree.ensureDirectory origin steps with
    | .ok made => (made, none)
    | .error .missing =>
      match tree.ensureDirectories origin before with
      | (made, some failure) => (made, some failure)
      | (made, none) =>
        match made.ensureDirectory origin steps with
        | .ok complete => (complete, none)
        | .error failure => (made, some failure)
    | .error failure => (tree, some failure)

/-- Makes the directory at the end of a path and all missing ones on the way. -/
def createDirectories (tree : FileTree) (path : String) : FileTree × Option FileFailure :=
  if path.isEmpty then (tree, none)
  else
    match Route.ofPath path with
    | .error failure => (tree, some failure)
    | .ok route => tree.ensureDirectories (tree.origin route) route.steps.reverse

/-- Writes a file at the end of a path, anew or over an older one. -/
def write (tree : FileTree) (path : String) (content : ByteArray) :
    Except FileFailure FileTree := do
  let route ← Route.ofPath path
  let place ← tree.locate route
  if tree.at? place = some .directory || route.endsWithSlash then .error .isDirectory
  else .ok (tree.put place (.file content))

/-- Moves a file to the end of a path, where it takes the place of an older one. -/
def move (tree : FileTree) (source target : String) : Except FileFailure FileTree := do
  let sourcePlace ← tree.locate (← Route.ofPath source)
  match tree.at? sourcePlace with
  | none => .error .missing
  | some .directory => .error .isDirectory
  | some (.file content) =>
    let route ← Route.ofPath target
    let place ← tree.locate route
    match route.steps.getLast? with
    | some (.down _) =>
      if route.endsWithSlash then .error .notDirectory
      else if tree.at? place = some .directory then .error .isDirectory
      else .ok ((tree.remove sourcePlace).put place (.file content))
    | some .stay | some .up | none => .error .busy

end FileTree

end ActivityCatalogue
