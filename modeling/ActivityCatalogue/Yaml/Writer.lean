import ActivityCatalogue.Decimal
import ActivityCatalogue.Yaml.Glyph
import ActivityCatalogue.Yaml.Scalar

/-!
# Writing YAML texts

A text is written plain where that is safe.  A text with a line feed becomes a
block of lines.  A text that looks like a number, a truth value or nothing at
all stands between single quotes, and so does one with marks that would be read
as structure.  What single quotes cannot hold is escaped between double quotes.
-/

namespace ActivityCatalogue

namespace Yaml

/-! ## Look-alikes -/

/-- Words that readers take for nothing, a truth value or a float. -/
def reservedWords : List String :=
  ["", "~", "null", "Null", "NULL", "true", "True", "TRUE", "false", "False", "FALSE",
    ".inf", ".Inf", ".INF", "+.inf", "+.Inf", "+.INF", "-.inf", "-.Inf", "-.INF",
    ".nan", ".NaN", ".NAN"]

/-- A text without its sign, and whether that is a minus. -/
def splitSign : List Char → Bool × List Char
  | '-' :: rest => (true, rest)
  | '+' :: rest => (false, rest)
  | rest => (false, rest)

/-- The value of a digit in a base up to sixteen. -/
def digitIn? (base : Nat) (c : Char) : Option Nat := (hexDigit? c).filter (· < base)

/-- The number that digits denote in a base; there has to be one. -/
def numberIn? (base : Nat) : List Char → Option Nat
  | [] => none
  | digits =>
    digits.foldlM (fun number c => (digitIn? base c).map (number * base + ·)) 0

/-- A number behind a base mark, which has to fit into 128 bits. -/
def isBased (isNegative : Bool) : List Char → Bool
  | '0' :: mark :: digits =>
    match [('x', 16), ('o', 8), ('b', 2)].lookup mark with
    | none => false
    | some base => (numberIn? base digits).any (· < if isNegative then Nat.pow 2 127 + 1 else Nat.pow 2 128)
  | _ => false

/-- Several digits of which the first is zero. -/
def isZeroLed (text : List Char) : Bool :=
  text.head? == some '0' && 1 < text.length && text.all Char.isDigit

/-- The exponent that a text is, 0 if it is empty. -/
def exponent? : List Char → Option Int
  | [] => some 0
  | mark :: rest =>
    if mark == 'e' || mark == 'E' then
      match splitSign rest with
      | (isNegative, digits) =>
        (numberIn? 10 digits).map fun number => if isNegative then -number else number
    else none

/-- A decimal number, with or without a point and an exponent, in the range of
double-precision floats. -/
def isDecimal (text : List Char) : Bool :=
  let whole := text.takeWhile Char.isDigit
  let rest := text.dropWhile Char.isDigit
  let (places, rest) := match rest with
    | '.' :: rest => (rest.takeWhile Char.isDigit, rest.dropWhile Char.isDigit)
    | rest => ([], rest)
  match exponent? rest with
  | none => false
  | some exponent =>
    !(whole ++ places).isEmpty &&
      Decimal.fitsDouble (Nat.ofDigitChars 10 (whole ++ places) 0) (exponent - (places.length : Int))

/-- A text that readers may take for something else. -/
def isLookalike (text : String) : Bool :=
  reservedWords.contains text ||
    match splitSign text.toList with
    | (isNegative, unsigned) =>
      isBased isNegative unsigned || isZeroLed unsigned || isDecimal unsigned

/-! ## What a text holds -/

/-- A character that needs no escape, a line feed included. -/
def isPrintable (c : Char) : Bool :=
  let code := c.toNat
  code == 0xA || (0x20 ≤ code && code ≤ 0x7E) ||
    (0xA0 ≤ code && code ≤ 0xFFFD && c != byteOrderMark) || 0x10000 ≤ code

/-- Whether a character that satisfies `p` stands right before one that
satisfies `q`. -/
def hasPair (p q : Char → Bool) : List Char → Bool
  | a :: b :: rest => (p a && q b) || hasPair p q (b :: rest)
  | _ => false

def isSpace (c : Char) : Bool := c == ' '

def isGap (c : Char) : Bool := isBlank c || isBreak c

/-- The characters at the start of a text that would be read as structure. -/
def leadingMarks : List Char :=
  ['#', ',', '[', ']', '\x7b', '\x7d', '&', '*', '!', '|', '>', '\'', '"', '%', '@', Char.ofNat 0x60]

/-- A mark at the start that structures if nothing or a gap follows it. -/
def startsAsMark : List Char → Bool
  | c :: rest =>
    leadingMarks.contains c || ((c == '?' || c == ':' || c == '-') && (rest.head?.all isGap)) ||
      ['-', '-', '-'].isPrefixOf (c :: rest) || ['.', '.', '.'].isPrefixOf (c :: rest)
  | [] => false

/-- A plain text would be read as something else. -/
def isStructured (text : List Char) : Bool :=
  startsAsMark text || text.getLast? == some ':' || hasPair (· == ':') isGap text ||
    hasPair isGap (· == '#') text

/-- A text with a space or a break at one of its ends. -/
def hasLooseEnd (text : List Char) : Bool :=
  let isLoose := fun c => isSpace c || isBreak c
  text.head?.any isLoose || text.getLast?.any isLoose

/-- A text that can be written without quotes. -/
def isPlainSafe (text : List Char) : Bool :=
  !text.isEmpty && text.all (fun c => isPrintable c && !isBreak c) && !hasLooseEnd text &&
    !isStructured text

/-- A text that can be written between single quotes. -/
def isSingleSafe (text : List Char) : Bool :=
  text.all isPrintable && !hasPair isSpace isBreak text && !hasPair isBreak isSpace text

/-- A text that can be written as a block of lines. -/
def isBlockSafe (text : List Char) : Bool :=
  text.all isPrintable && !hasPair isSpace isBreak text && text.getLast? != some ' '

/-! ## Writing -/

/-- The indentation of the lines of a list item. -/
def itemIndent : List Char := List.replicate 4 ' '

/-- A text between single quotes, its first character excepted; a line that
follows a break is indented. -/
def singleQuoted : (isBroken : Bool) → List Char → List Char
  | isBroken, [] => (if isBroken then itemIndent else []) ++ ['\'']
  | isBroken, c :: rest =>
    if isBreak c then c :: singleQuoted true rest
    else if isSpace c then c :: singleQuoted isBroken rest
    else
      (if isBroken then itemIndent else []) ++
        (if c == '\'' then ['\'', '\''] else [c]) ++ singleQuoted false rest

/-- As many upper-case hexadecimal digits of a number as asked for. -/
def hexDigits (width number : Nat) : List Char :=
  let digits := (Nat.toDigits 16 number).map Char.toUpper
  List.replicate (width - digits.length) '0' ++ digits

/-- A character between double quotes.  Those without a short escape that have to
be escaped lie below U+10000. -/
def escape (c : Char) : List Char :=
  let short : Option Char :=
    [('\x00', '0'), ('\x07', 'a'), ('\x08', 'b'), ('\t', 't'), ('\n', 'n'), ('\x0b', 'v'),
      ('\x0c', 'f'), ('\r', 'r'), ('\x1b', 'e'), ('"', '"'), ('\\', '\\'), ('\u0085', 'N'),
      ('\u2028', 'L'), ('\u2029', 'P')].lookup c
  match short with
  | some mark => ['\\', mark]
  | none =>
    if isPrintable c then [c]
    else if c.toNat ≤ 0xFF then '\\' :: 'x' :: hexDigits 2 c.toNat
    else '\\' :: 'u' :: hexDigits 4 c.toNat

def doubleQuoted (text : List Char) : List Char := '"' :: text.flatMap escape ++ ['"']

/-- The lines of a block. -/
def blockLines : (isBroken : Bool) → List Char → List Char
  | _, [] => []
  | isBroken, c :: rest =>
    if isBreak c then c :: blockLines true rest
    else (if isBroken then itemIndent else []) ++ c :: blockLines false rest

/-- The mark that tells how many breaks end a block. -/
def chompingMark (text : List Char) : List Char :=
  match text.reverse with
  | [] => ['-']
  | [last] => if isBreak last then ['+'] else ['-']
  | last :: before :: _ =>
    if !isBreak last then ['-'] else if isBreak before then ['+'] else []

/-- A block; its indentation is told if the first line does not show it. -/
def block (text : List Char) : List Char :=
  let hint := if text.head?.any fun c => isSpace c || isBreak c then ['2'] else []
  '|' :: hint ++ chompingMark text ++ '\n' :: blockLines true text

/-- A text as an item of a list. -/
def itemText (text : String) : List Char :=
  let chars := text.toList
  let isBlock := chars.contains '\n'
  if isBlock && isBlockSafe chars then block chars
  else if !isBlock && !isLookalike text && isPlainSafe chars then chars
  else if !isBlock && isSingleSafe chars then '\'' :: singleQuoted false chars
  else doubleQuoted chars

/-- An item of a list on lines of its own; a block may bring its last line break. -/
def item (text : String) : List Char :=
  let written := itemText text
  ' ' :: ' ' :: '-' :: ' ' :: written ++
    (if written.getLast? == some '\n' || written.getLast?.any isBreak then [] else ['\n'])

/-- A section with one list in it, behind its name. -/
def listSection (sectionName listName : String) (texts : List String) : String :=
  let items := if texts.isEmpty then " []\n" else "\n" ++ String.ofList (texts.flatMap item)
  sectionName ++ ":\n  " ++ listName ++ ":" ++ items

end Yaml

end ActivityCatalogue
