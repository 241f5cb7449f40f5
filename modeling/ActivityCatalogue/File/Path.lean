import ActivityCatalogue.Text.Pieces

/-!
# Paths

A path is a text of components between slashes.  Empty components and lone
dots count for nothing, except for a slash or a dot at the very start.  The
functions here cut and extend the text and leave what they keep as it is.
-/

namespace ActivityCatalogue

namespace Path

/-- A component that counts for nothing behind the start. -/
def isIdle (component : String) : Bool := component == "" || component == "."

/-- The components without the idle ones at the end. -/
def dropIdle (components : List String) : List String :=
  (components.reverse.dropWhile isIdle).reverse

/-- A path begins with a slash. -/
def isAbsolute (path : String) : Bool := path.toList.head? == some '/'

/-- What stands before the first slash, and the components behind it that are
not idle at the end. -/
def parts (path : String) : String × List String :=
  match Text.pieces '/' path with
  | [] => ("", [])
  | first :: more => (first, dropIdle more)

/-- A component that names something in its directory. -/
def isProper (component : String) : Bool := component != ".." && !isIdle component

/-- A text that can be the name of a file. -/
def isName (text : String) : Bool := isProper text && !text.contains '/'

/-- The name at the end of a path. -/
def fileName? (path : String) : Option String :=
  let (first, more) := parts path
  (more.getLast?.getD first |> some).filter isProper

/-- The path without its last component. -/
def parent? (path : String) : Option String :=
  let (first, more) := parts path
  match more with
  | [] => if first.isEmpty then none else some ""
  | _ :: _ =>
    match dropIdle more.dropLast with
    | [] => some (if first.isEmpty then "/" else first)
    | kept => some (Text.join '/' (first :: kept))

/-- A path inside another one. -/
def join (base name : String) : String :=
  if isAbsolute name || base.isEmpty then name
  else if base.toList.getLast? == some '/' then base ++ name
  else base ++ "/" ++ name

/-! ## Extensions -/

/-- A name cut at its last dot; a dot at the start does not count. -/
def stemAndExtension (name : String) : String × Option String :=
  match (Text.pieces '.' name).reverse with
  | extension :: before :: more =>
    let stem := Text.join '.' (before :: more).reverse
    if stem.isEmpty then (name, none) else (stem, some extension)
  | _ => (name, none)

/-- What follows the last dot of the name. -/
def extension? (path : String) : Option String :=
  (fileName? path).bind fun name => (stemAndExtension name).2

/-- The path with another extension; a path without a name stays as it is. -/
def withExtension (path extension : String) : String :=
  match fileName? path with
  | none => path
  | some name =>
    let (first, more) := parts path
    let renamed := (stemAndExtension name).1 ++ "." ++ extension
    match more with
    | [] => renamed
    | _ :: _ => Text.join '/' (first :: more.dropLast ++ [renamed])

end Path

end ActivityCatalogue
