/-!
# Characters in their places

A document is read as a list of characters that know their line and column.
Line breaks are made alike: a carriage return, a line feed, both together and a
next-line character all become a line feed.  The line and paragraph separators
break lines too, but stay what they are.
-/

namespace ActivityCatalogue

namespace Yaml

/-- A character with its place. -/
structure Glyph where
  char : Char
  /-- The number of bytes before the character. -/
  index : Nat
  line : Nat
  /-- The number of characters before the character in its line. -/
  column : Nat

/-- The characters that a document may hold. -/
def isAllowed (c : Char) : Bool :=
  let code := c.toNat
  code == 0x9 || code == 0xA || code == 0xD || (0x20 ≤ code && code ≤ 0x7E) || code == 0x85 ||
    (0xA0 ≤ code && code ≤ 0xFFFD) || 0x10000 ≤ code

/-- The mark that may stand at the start of a line, before the first token there. -/
def byteOrderMark : Char := '\ufeff'

/-- The next-line character. -/
def nextLine : Char := '\u0085'

def isBreak (c : Char) : Bool :=
  c == '\n' || c == '\r' || c == nextLine || c == '\u2028' || c == '\u2029'

/-- A blank within a line. -/
def isBlank (c : Char) : Bool := c == ' ' || c == '\t'

/-- A character of a name: a letter, a digit, a dash or an underscore, of ASCII. -/
def isWordChar (c : Char) : Bool := c.isAlphanum || c == '-' || c == '_'

/-- The characters of a text in their places, line breaks made alike. -/
def glyphsFrom (index line column : Nat) : List Char → List Glyph
  | [] => []
  | '\r' :: '\n' :: rest => ⟨'\n', index, line, column⟩ :: glyphsFrom (index + 2) (line + 1) 0 rest
  | c :: rest =>
    if isBreak c then
      ⟨if c == '\r' || c == nextLine then '\n' else c, index, line, column⟩ ::
        glyphsFrom (index + c.utf8Size) (line + 1) 0 rest
    else ⟨c, index, line, column⟩ :: glyphsFrom (index + c.utf8Size) line (column + 1) rest

/-- The glyphs of a text, none if it holds a character that is not allowed. -/
def glyphs? (text : String) : Option (List Glyph) :=
  if text.toList.all isAllowed then some (glyphsFrom 0 0 0 text.toList) else none

/-! ## Looking ahead -/

def startsWith (c : Char) : List Glyph → Bool
  | g :: _ => g.char == c
  | [] => false

/-- A blank, a line break or the end comes next. -/
def endsWord : List Glyph → Bool
  | g :: _ => isBlank g.char || isBreak g.char
  | [] => true

/-- A line break or the end comes next. -/
def endsLine : List Glyph → Bool
  | g :: _ => isBreak g.char
  | [] => true

/-- One of the given characters comes next. -/
def startsWithAny (chars : List Char) : List Glyph → Bool
  | g :: _ => chars.contains g.char
  | [] => false

/-- Three equal marks at the start of a line, as a word. -/
def isMarker (mark : Char) : List Glyph → Bool
  | a :: b :: c :: rest =>
    a.column == 0 && a.char == mark && b.char == mark && c.char == mark && endsWord rest
  | _ => false

/-- The start or the end of a document is marked here. -/
def isDocumentMarker (rest : List Glyph) : Bool := isMarker '-' rest || isMarker '.' rest

/-- What follows the characters that satisfy `p`. -/
def skipWhile (p : Char → Bool) (rest : List Glyph) : List Glyph := rest.dropWhile fun g => p g.char

/-- The characters that satisfy `p`, and what follows them. -/
def takeRun (p : Char → Bool) (rest : List Glyph) : List Char × List Glyph :=
  ((rest.takeWhile fun g => p g.char).map Glyph.char, skipWhile p rest)

/-- What follows the blanks and the comment that end a line; nothing else may
stand there. -/
def endOfLine? (rest : List Glyph) : Option (List Glyph) :=
  let rest := skipWhile isBlank rest
  let rest := if startsWith '#' rest then skipWhile (fun c => !isBreak c) rest else rest
  if endsLine rest then some (rest.drop 1) else none

end Yaml

end ActivityCatalogue
