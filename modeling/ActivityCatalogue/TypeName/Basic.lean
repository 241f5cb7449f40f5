import ActivityCatalogue.NameMap

/-!
# Type names

A type as module metadata spells it: a dotted or slashed name, an optional list
of template arguments announced by their number, and array brackets.

  `System.Collections.Generic.List` + backtick + `1<System.String[]>`

`TypeName` is the syntax tree, `TypeName.spelling` writes it back as metadata
does, and `TypeName.rendering` writes it for a reader: the number of arguments
is dropped, and a name whose qualifier is one of the given namespaces is cut to
its last segment.
-/

namespace ActivityCatalogue

/-! ## Names -/

/-- Segments joined by separators: the first segment, then each further one
behind the separator that precedes it. -/
structure QualifiedName where
  first : List Char
  more : List (Char × List Char)

namespace QualifiedName

/-- A dot, or the slash in front of a nested type. -/
def isSeparator (c : Char) : Bool := c == '.' || c == '/'

/-- Cuts a text at its separators. -/
def ofText : List Char → QualifiedName
  | [] => ⟨[], []⟩
  | c :: rest =>
    let name := ofText rest
    if isSeparator c then ⟨[], (c, name.first) :: name.more⟩
    else ⟨c :: name.first, name.more⟩

def spelling (name : QualifiedName) : List Char :=
  name.first ++ name.more.flatMap fun part => part.1 :: part.2

/-- What stands before the last separator, and the segment behind it. -/
def qualified? (name : QualifiedName) : Option (QualifiedName × List Char) :=
  name.more.getLast?.map fun part => (⟨name.first, name.more.dropLast⟩, part.2)

/-- The last segment if the qualifier is one of the namespaces, else the whole name. -/
def rendering (namespaces : NameSet) (name : QualifiedName) : List Char :=
  match name.qualified? with
  | none => name.spelling
  | some (qualifier, last) =>
    if namespaces.contains (String.ofList qualifier.spelling) then last else name.spelling

theorem spelling_ofText (text : List Char) : (ofText text).spelling = text := by
  induction text with
  | nil => rfl
  | cons c rest ih =>
    unfold ofText
    split
    · simpa [spelling] using ih
    · simpa [spelling] using ih

end QualifiedName

/-! ## Types -/

/-- A type: its name, if it has one, its template arguments (none for a type
without a template part) and its number of array brackets. -/
inductive TypeName where
  | mk (name : Option QualifiedName) (arguments : List TypeName) (arrays : Nat)

namespace TypeName

def name : TypeName → Option QualifiedName
  | mk name _ _ => name

def arguments : TypeName → List TypeName
  | mk _ arguments _ => arguments

def arrays : TypeName → Nat
  | mk _ _ arrays => arrays

/-- Nothing at all: no name, no arguments, no brackets. -/
def isEmpty : TypeName → Bool
  | mk name arguments arrays => name.isNone && arguments.isEmpty && arrays == 0

/-- As many pairs of array brackets as asked for. -/
def brackets (count : Nat) : List Char := (List.replicate count ['[', ']']).flatten

/-- The parts between angle brackets, with commas between them. -/
def bracketed (parts : List (List Char)) : List Char :=
  '<' :: ([','].intercalate parts ++ ['>'])

mutual

/-- The type as metadata spells it. -/
def spelling : TypeName → List Char
  | mk name arguments arrays =>
    (name.elim [] QualifiedName.spelling) ++
      (match arguments with
        | [] => []
        | _ :: _ =>
          Char.ofNat 0x60 :: (Nat.toDigits 10 arguments.length ++ bracketed (spellings arguments))) ++
      brackets arrays

def spellings : List TypeName → List (List Char)
  | [] => []
  | type :: rest => spelling type :: spellings rest

end

mutual

/-- The type as a report shows it. -/
def rendering (namespaces : NameSet) : TypeName → List Char
  | mk name arguments arrays =>
    (name.elim [] (QualifiedName.rendering namespaces)) ++
      (match arguments with
        | [] => []
        | _ :: _ => bracketed (renderings namespaces arguments)) ++
      brackets arrays

def renderings (namespaces : NameSet) : List TypeName → List (List Char)
  | [] => []
  | type :: rest => rendering namespaces type :: renderings namespaces rest

end

end TypeName

end ActivityCatalogue
