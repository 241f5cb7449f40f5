import ActivityCatalogue.Json.Basic

/-!
# Writing JSON

Lists and objects are written one item a line, indented by two blanks for each
level; empty ones are a pair of brackets.  Texts escape quotes, backslashes and
control characters, and nothing else.
-/

namespace ActivityCatalogue

namespace Json

/-- The lower-case hexadecimal digits of a number below 256. -/
def hexPair (number : Nat) : List Char := [Nat.digitChar (number / 16), Nat.digitChar (number % 16)]

/-- A character as it stands between quotes. -/
def escape (c : Char) : List Char :=
  match c with
  | '"' => ['\\', '"']
  | '\\' => ['\\', '\\']
  | '\x08' => ['\\', 'b']
  | '\x0c' => ['\\', 'f']
  | '\n' => ['\\', 'n']
  | '\r' => ['\\', 'r']
  | '\t' => ['\\', 't']
  | c => if c.toNat < 0x20 then '\\' :: 'u' :: '0' :: '0' :: hexPair c.toNat else [c]

/-- A text between quotes. -/
def quoted : JsonText → List Char
  | some text => '"' :: (text.toList.flatMap escape ++ ['"'])
  | none => "\"\\ud800\"".toList

/-- The start of a line of a level. -/
def newLine (level : Nat) : List Char := '\n' :: List.replicate (2 * level) ' '

/-- Parts one a line between brackets; the brackets are of a level, the parts of
the next one. -/
def bracketed (level : Nat) (opening closing : Char) : List (List Char) → List Char
  | [] => [opening, closing]
  | parts =>
    opening :: (newLine (level + 1) ++ (',' :: newLine (level + 1)).intercalate parts) ++
      newLine level ++ [closing]

mutual

/-- A value whose brackets are of a level. -/
def written (level : Nat) : Json → List Char
  | null => "null".toList
  | bool true => "true".toList
  | bool false => "false".toList
  | natural number => Nat.toDigits 10 number
  | decimal negative digits scale =>
    (if negative then ['-'] else []) ++ Nat.toDigits 10 digits ++ 'e' ::
      ((if scale < 0 then ['-'] else []) ++ Nat.toDigits 10 scale.natAbs)
  | string content => quoted content
  | list items => bracketed level '[' ']' (writtenItems (level + 1) items)
  | object members => bracketed level '\x7b' '\x7d' (writtenMembers (level + 1) members)

def writtenItems (level : Nat) : List Json → List (List Char)
  | [] => []
  | item :: rest => written level item :: writtenItems level rest

def writtenMembers (level : Nat) : List (JsonText × Json) → List (List Char)
  | [] => []
  | (name, value) :: rest =>
    (quoted name ++ ':' :: ' ' :: written level value) :: writtenMembers level rest

end

/-- The text of a value, without a line break at the end. -/
def pretty (value : Json) : String := String.ofList (written 0 value)

end Json

end ActivityCatalogue
