import ActivityCatalogue.Json.Basic

/-!
# JSON tokens

The text of a value is cut into tokens: punctuation, literals, numbers and
texts.  Blanks between them are dropped.  Each step takes at least one
character, so cutting ends with the text.
-/

namespace ActivityCatalogue

namespace Json

inductive Token where
  | openList
  | closeList
  | openObject
  | closeObject
  | comma
  | colon
  /-- A value without parts. -/
  | atom (value : Json)

namespace Token

/-! ## Texts -/

/-- A piece of a text between quotes: a character, or the UTF-16 unit of an escape. -/
inductive Piece where
  | char (c : Char)
  | unit (code : Nat)

/-- The character behind a backslash stands for this one. -/
def escaped? : Char → Option Char
  | '"' => some '"'
  | '\\' => some '\\'
  | '/' => some '/'
  | 'b' => some '\x08'
  | 'f' => some '\x0c'
  | 'n' => some '\n'
  | 'r' => some '\r'
  | 't' => some '\t'
  | _ => none

def hexDigit? (c : Char) : Option Nat :=
  if c.isDigit then some (c.toNat - '0'.toNat)
  else if 'a' ≤ c && c ≤ 'f' then some (c.toNat - 'a'.toNat + 10)
  else if 'A' ≤ c && c ≤ 'F' then some (c.toNat - 'A'.toNat + 10)
  else none

/-- The number that hexadecimal digits denote. -/
def hexNumber? (digits : List Char) : Option Nat :=
  digits.foldlM (fun number digit => (hexDigit? digit).map (number * 16 + ·)) 0

/-- The pieces up to the closing quote, and what follows it.  Control characters
have to be escaped. -/
def readPieces : List Char → Option (List Piece × List Char)
  | [] => none
  | '"' :: rest => some ([], rest)
  | '\\' :: 'u' :: a :: b :: c :: d :: rest => do
    let code ← hexNumber? [a, b, c, d]
    let (pieces, left) ← readPieces rest
    return (.unit code :: pieces, left)
  | '\\' :: c :: rest => do
    let meant ← escaped? c
    let (pieces, left) ← readPieces rest
    return (.char meant :: pieces, left)
  | c :: rest =>
    if c.toNat < 0x20 || c == '\\' then none
    else (readPieces rest).map fun (pieces, left) => (.char c :: pieces, left)

/-- The first unit of a surrogate pair. -/
def isLead (code : Nat) : Bool := 0xD800 ≤ code && code < 0xDC00

/-- The second unit of a surrogate pair. -/
def isTrail (code : Nat) : Bool := 0xDC00 ≤ code && code < 0xE000

/-- The character that a surrogate pair stands for. -/
def pairChar (lead trail : Nat) : Char :=
  Char.ofNat (0x10000 + (lead - 0xD800) * 0x400 + (trail - 0xDC00))

/-- The characters of pieces, none if half of a surrogate pair stands alone. -/
def joinPieces : List Piece → Option (List Char)
  | [] => some []
  | .char c :: rest => (joinPieces rest).map (c :: ·)
  | .unit code :: rest =>
    if isLead code then
      match rest with
      | .unit trail :: rest =>
        if isTrail trail then (joinPieces rest).map (pairChar code trail :: ·) else none
      | _ => none
    else if isTrail code then none
    else (joinPieces rest).map (Char.ofNat code :: ·)

/-- The text up to the closing quote, and what follows it. -/
def readText (text : List Char) : Option (JsonText × List Char) :=
  (readPieces text).map fun (pieces, rest) => ((joinPieces pieces).map String.ofList, rest)

/-! ## Numbers -/

/-- At least one decimal digit, and what follows the digits. -/
def readDigits (text : List Char) : Option (List Char × List Char) :=
  match text.takeWhile Char.isDigit with
  | [] => none
  | digits => some (digits, text.dropWhile Char.isDigit)

/-- The digits behind a point, if there is one. -/
def readFraction : List Char → Option (Option (List Char) × List Char)
  | '.' :: rest => (readDigits rest).map fun (digits, left) => (some digits, left)
  | rest => some (none, rest)

/-- The exponent, if there is one. -/
def readExponent : List Char → Option (Option Int × List Char)
  | mark :: rest =>
    if mark == 'e' || mark == 'E' then
      let (sign, behindSign) : Int × List Char :=
        match rest with
        | '-' :: digits => (-1, digits)
        | '+' :: digits => (1, digits)
        | digits => (1, digits)
      (readDigits behindSign).map fun (digits, left) =>
        (some (sign * Nat.ofDigitChars 10 digits 0), left)
    else some (none, mark :: rest)
  | [] => some (none, [])

/-- A number; more than one digit before the point may not start with zero. -/
def readNumber (text : List Char) : Option (Json × List Char) := do
  let (negative, unsigned) : Bool × List Char :=
    match text with
    | '-' :: rest => (true, rest)
    | rest => (false, rest)
  let (whole, behindWhole) ← readDigits unsigned
  if whole.head? == some '0' && whole.length != 1 then none
  let (fraction, behindFraction) ← readFraction behindWhole
  let (exponent, rest) ← readExponent behindFraction
  let value :=
    if !negative && fraction.isNone && exponent.isNone then natural (Nat.ofDigitChars 10 whole 0)
    else
      let places := fraction.getD []
      decimal negative (Nat.ofDigitChars 10 (whole ++ places) 0)
        (exponent.getD 0 - (places.length : Int))
  return (value, rest)

/-! ## Cutting -/

/-- The blanks between tokens. -/
def isBlank (c : Char) : Bool := c == ' ' || c == '\n' || c == '\t' || c == '\r'

/-- The literal that a text starts with, and what follows it. -/
def readLiteral (text : List Char) : Option (Json × List Char) :=
  [("null", null), ("true", bool true), ("false", bool false)].findSome? fun (word, value) =>
    if word.toList.isPrefixOf text then some (value, text.drop word.length) else none

/-- The token at the start of a text without blanks there, and what follows it. -/
def readOne : List Char → Option (Token × List Char)
  | [] => none
  | '[' :: rest => some (openList, rest)
  | ']' :: rest => some (closeList, rest)
  | '\x7b' :: rest => some (openObject, rest)
  | '\x7d' :: rest => some (closeObject, rest)
  | ',' :: rest => some (comma, rest)
  | ':' :: rest => some (colon, rest)
  | '"' :: rest => (readText rest).map fun (content, left) => (atom (.string content), left)
  | text => ((readLiteral text).or (readNumber text)).map fun (value, left) => (atom value, left)

/-- The tokens of a text.  Each takes at least one character, so that the length
of the text bounds their number. -/
def readUpTo : (bound : Nat) → List Char → Option (List Token)
  | bound, text =>
    match text.dropWhile isBlank with
    | [] => some []
    | rest =>
      match bound with
      | 0 => none
      | bound + 1 => do
        let (token, left) ← readOne rest
        return token :: (← readUpTo bound left)

def readAll (text : String) : Option (List Token) := readUpTo text.toList.length text.toList

end Token

end Json

end ActivityCatalogue
