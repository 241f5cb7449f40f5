import ActivityCatalogue.File.Tree

/-!
# Routes

What a path means in a file tree: the steps from the root or from the working
directory.  Every place that a step leaves has to be a directory, so a route
may fail on its way; where it ends there may be nothing.
-/

namespace ActivityCatalogue

/-- Why an operation on a file tree fails. -/
inductive FileFailure where
  | missing
  | busy
  | alreadyExists
  | notDirectory
  | isDirectory
  | nameTooLong
  | nulInPath
  | notText
  deriving DecidableEq

def FileFailure.reason : FileFailure → String
  | missing => "No such file or directory (os error 2)"
  | busy => "Device or resource busy (os error 16)"
  | alreadyExists => "File exists (os error 17)"
  | notDirectory => "Not a directory (os error 20)"
  | isDirectory => "Is a directory (os error 21)"
  | nameTooLong => "File name too long (os error 36)"
  | nulInPath => "file name contained an unexpected NUL byte"
  | notText => "stream did not contain valid UTF-8"

/-! ## Steps -/

inductive Step where
  | stay
  | up
  | down (name : FileName)
  deriving DecidableEq

namespace Step

/-- The step that a component of a path tells; an empty one tells none. -/
def ofComponent? (component : String) : Option Step :=
  if h : Path.isName component then some (.down ⟨component, h⟩)
  else if component == ".." then some .up
  else if component == "." then some .stay
  else none

/-- The greatest size of a name in bytes. -/
def maxNameSize : Nat := 255

/-- Where a step leads; above the root is the root. -/
def next (place : Place) : Step → Except FileFailure Place
  | stay => .ok place
  | up => .ok place.dropLast
  | down name =>
    if name.text.utf8ByteSize ≤ maxNameSize then .ok (place ++ [name]) else .error .nameTooLong

end Step

/-- The meaning of a path.  One that ends with a slash can only be a directory. -/
structure Route where
  fromRoot : Bool
  steps : List Step
  endsWithSlash : Bool
  deriving DecidableEq

namespace Route

/-- The greatest size of a path in bytes. -/
def maxPathSize : Nat := 4095

def ofPath (path : String) : Except FileFailure Route :=
  if path.isEmpty then .error .missing
  else if path.contains '\x00' then .error .nulInPath
  else if maxPathSize < path.utf8ByteSize then .error .nameTooLong
  else .ok {
    fromRoot := Path.isAbsolute path
    steps := (Text.pieces '/' path).filterMap Step.ofComponent?
    endsWithSlash := path.toList.getLast? == some '/' }

end Route

/-! ## Following a route -/

namespace FileTree

/-- Whether a place can be left by a step, that is, whether it is a directory. -/
def enter (tree : FileTree) (place : Place) : Except FileFailure Unit :=
  match tree.at? place with
  | some .directory => .ok ()
  | some (.file _) => .error .notDirectory
  | none => .error .missing

/-- Where steps lead from a place. -/
def follow (tree : FileTree) (place : Place) : List Step → Except FileFailure Place
  | [] => .ok place
  | step :: further => do
    tree.enter place
    tree.follow (← step.next place) further

/-- Where a route starts. -/
def origin (tree : FileTree) (route : Route) : Place :=
  if route.fromRoot then [] else tree.workingDirectory

/-- The place at the end of a route. -/
def locate (tree : FileTree) (route : Route) : Except FileFailure Place :=
  tree.follow (tree.origin route) route.steps

/-- What is at the end of a path. -/
def find (tree : FileTree) (path : String) : Except FileFailure FileNode := do
  let route ← Route.ofPath path
  match tree.at? (← tree.locate route) with
  | none => .error .missing
  | some .directory => .ok .directory
  | some (.file content) =>
    if route.endsWithSlash then .error .notDirectory else .ok (.file content)

end FileTree

end ActivityCatalogue
