import ActivityCatalogue.Text.Letters
import ActivityCatalogue.TypeName.Basic

/-!
# Reading type names

The reader goes once over the text with a cursor that counts UTF-8 bytes.  It
stops at the first violation of the grammar and reports where it stood.

  Type      = [Name] [backtick Arity '<' Type (',' Type)* '>'] '[]'*
  Name      = Segment (('.' | '/') Segment)*

The number of arguments has to equal the announced arity, an argument may not
be empty, and arguments nest at most `maxNesting` levels.  Nesting is a
parameter of the reader that each level lowers by one.
-/

namespace ActivityCatalogue

namespace TypeName

/-- The deepest nesting of template arguments that the reader accepts. -/
def maxNesting : Nat := 64

/-- Announced arities above this bound count as the bound. -/
def maxArity : Nat := Nat.pow 2 64 - 1

/-! ## Violations -/

/-- What the text lacks at which byte, or what is left behind a complete type. -/
inductive Violation where
  | nameCharMissing (offset : Nat)
  | nonZeroDigitMissing (offset : Nat)
  | lessThanMissing (offset : Nat)
  | templateTypeMissing (offset : Nat)
  | commaMissing (offset : Nat)
  | greaterThanMissing (offset : Nat)
  | closingBracketMissing (offset : Nat)
  | tooDeep (offset : Nat)
  | extraContents (rest : String)
  deriving DecidableEq

namespace Violation

/-- The byte at which the violation was noticed. -/
def offset? : Violation → Option Nat
  | nameCharMissing offset | nonZeroDigitMissing offset | lessThanMissing offset
  | templateTypeMissing offset | commaMissing offset | greaterThanMissing offset
  | closingBracketMissing offset | tooDeep offset => some offset
  | extraContents _ => none

def message : Violation → String
  | nameCharMissing offset => s!"Name char is missing at offset {offset}"
  | nonZeroDigitMissing offset => s!"Non-zero digit is missing at offset {offset}"
  | lessThanMissing offset => s!"Less-than is missing at offset {offset}"
  | templateTypeMissing offset => s!"Template type is missing at offset {offset}"
  | commaMissing offset => s!"Comma is missing at offset {offset}"
  | greaterThanMissing offset => s!"Greater-than is missing at offset {offset}"
  | closingBracketMissing offset => s!"Closing square bracket is missing at offset {offset}"
  | tooDeep offset => s!"Template nesting is too deep at offset {offset}"
  | extraContents rest => s!"Extra contents: {rest}"

end Violation

/-! ## The cursor -/

/-- The number of UTF-8 bytes of a text. -/
def width : List Char → Nat
  | [] => 0
  | c :: rest => c.utf8Size + width rest

/-- A place in the text: the bytes before it and the characters behind it. -/
structure Cursor where
  offset : Nat
  rest : List Char

namespace Cursor

def start (text : String) : Cursor := ⟨0, text.toList⟩

/-- The longest run of characters that satisfy `p`, and the place behind it. -/
def span (p : Char → Bool) (cursor : Cursor) : List Char × Cursor :=
  let run := cursor.rest.takeWhile p
  (run, ⟨cursor.offset + width run, cursor.rest.dropWhile p⟩)

/-- The place behind the character `expected`, if that is the next one. -/
def eat? (expected : Char) : Cursor → Option Cursor
  | ⟨offset, c :: rest⟩ => if c = expected then some ⟨offset + c.utf8Size, rest⟩ else none
  | ⟨_, []⟩ => none

/-- The place behind the character `expected`, or the violation that its absence is. -/
def eat (expected : Char) (violation : Nat → Violation) (cursor : Cursor) :
    Except Violation Cursor :=
  match cursor.eat? expected with
  | some next => .ok next
  | none => .error (violation cursor.offset)

end Cursor

/-! ## Names -/

/-- A character that may start a segment. -/
def isSegmentLead (c : Char) : Bool := Text.isAlphabetic c || c == '_'

/-- A character that may stand in a segment. -/
def isSegmentChar (c : Char) : Bool := Text.isAlphabetic c || Text.isNumeric c || c == '_'

/-- A character that may stand in a name. -/
def isNameChar (c : Char) : Bool := isSegmentChar c || QualifiedName.isSeparator c

/-- A text that can start a segment. -/
def startsSegment : List Char → Bool
  | [] => false
  | c :: _ => isSegmentLead c

/-- The first place behind a separator where no segment starts; `offset` is the
place of the first separator. -/
def segmentFault? (offset : Nat) : List (Char × List Char) → Option Nat
  | [] => none
  | (separator, segment) :: more =>
    let place := offset + separator.utf8Size
    if startsSegment segment then segmentFault? (place + width segment) more else some place

/-- The name at the cursor, none if no segment starts there. -/
def readName (cursor : Cursor) : Except Violation (Option QualifiedName × Cursor) :=
  if startsSegment cursor.rest then
    let (text, next) := cursor.span isNameChar
    let name := QualifiedName.ofText text
    match segmentFault? (cursor.offset + width name.first) name.more with
    | some place => .error (.nameCharMissing place)
    | none => .ok (some name, next)
  else .ok (none, cursor)

/-! ## Array brackets -/

/-- The number of bracket pairs at the cursor. -/
def readArrays (offset : Nat) : List Char → Except Violation (Nat × Cursor)
  | '[' :: ']' :: rest => (readArrays (offset + 2) rest).map fun read => (read.1 + 1, read.2)
  | '[' :: _ => .error (.closingBracketMissing (offset + 1))
  | rest => .ok (0, ⟨offset, rest⟩)

/-! ## Template arguments -/

/-- A reader of one type at a cursor. -/
abbrev TypeReader := Cursor → Except Violation (TypeName × Cursor)

/-- The value of decimal digits, cut at the greatest arity. -/
def arityOf (digits : List Char) : Nat :=
  digits.foldl (fun arity digit => min maxArity (arity * 10 + (digit.toNat - '0'.toNat))) 0

/-- The announced number of arguments: decimal digits that do not start with zero. -/
def readArity (cursor : Cursor) : Except Violation (Nat × Cursor) :=
  let (digits, next) := cursor.span Char.isDigit
  match digits with
  | [] => .error (.nonZeroDigitMissing cursor.offset)
  | '0' :: _ => .error (.nonZeroDigitMissing cursor.offset)
  | _ :: _ => .ok (arityOf digits, next)

/-- One argument, and as many further ones as asked for, each behind a comma. -/
def readArguments (argument : TypeReader) :
    (further : Nat) → Cursor → Except Violation (List TypeName × Cursor)
  | 0, cursor => do
    let (type, next) ← argument cursor
    return ([type], next)
  | further + 1, cursor => do
    let (type, next) ← argument cursor
    let (types, last) ← readArguments argument further (← next.eat ',' .commaMissing)
    return (type :: types, last)

/-- The template part at the cursor, empty if no backtick stands there. -/
def readTemplate (argument : TypeReader) (cursor : Cursor) :
    Except Violation (List TypeName × Cursor) :=
  match cursor.eat? (Char.ofNat 0x60) with
  | none => .ok ([], cursor)
  | some behindMark => do
    let (arity, behindArity) ← readArity behindMark
    let opened ← behindArity.eat '<' .lessThanMissing
    let (types, last) ← readArguments argument (arity - 1) opened
    return (types, ← last.eat '>' .greaterThanMissing)

/-! ## Types -/

/-- A type whose template arguments `argument` reads. -/
def readTypeWith (argument : TypeReader) : TypeReader := fun cursor => do
  let (name, behindName) ← readName cursor
  let (arguments, behindTemplate) ← readTemplate argument behindName
  let (arrays, last) ← readArrays behindTemplate.offset behindTemplate.rest
  return (mk name arguments arrays, last)

/-- An argument is a type that is not empty. -/
def readArgumentWith (type : TypeReader) : TypeReader := fun cursor => do
  let (argument, next) ← type cursor
  if argument.isEmpty then .error (.templateTypeMissing cursor.offset) else .ok (argument, next)

/-- A type with at most `levels` levels of template arguments. -/
def readType : Nat → TypeReader
  | 0 => readTypeWith fun cursor => .error (.tooDeep cursor.offset)
  | levels + 1 => readTypeWith (readArgumentWith (readType levels))

/-- The type that the whole text spells. -/
def read (text : String) : Except Violation TypeName := do
  let (type, last) ← readType maxNesting (.start text)
  match last.rest with
  | [] => .ok type
  | rest => .error (.extraContents (String.ofList rest))

end TypeName

end ActivityCatalogue
