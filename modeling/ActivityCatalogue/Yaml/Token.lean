import ActivityCatalogue.Yaml.Scalar

/-!
# YAML tokens

A document is cut into tokens: marks, scalars, names, and the openings and
closings of block collections, which follow from the indentation.

A mapping key need not be marked as one.  Where a key may start, its place is
kept as a candidate; the colon behind it then puts a key mark there, and in
block style perhaps the opening of a mapping.  A candidate has to be followed by
its colon in the same line and within 1024 bytes.  At the indentation of an
open mapping nothing but a key can stand, so there the colon is required.
-/

namespace ActivityCatalogue

namespace Yaml

inductive Token where
  | versionDirective (major minor : Nat)
  | tagDirective (handle : List Char)
  | documentStart
  | documentEnd
  | openBlockSequence
  | openBlockMapping
  | closeBlock
  | openFlowSequence
  | closeFlowSequence
  | openFlowMapping
  | closeFlowMapping
  | blockEntry
  | flowEntry
  | key
  | value
  | alias (name : List Char)
  | anchor (name : List Char)
  /-- A tag; it names a handle, or none if it is written in full. -/
  | tag (handle : Option (List Char))
  | scalar (isPlain : Bool) (text : List Char)
  deriving DecidableEq

/-! ## Directives, anchors and tags -/

/-- Decimal digits, at most nine. -/
def readVersionNumber (rest : List Glyph) : Option (Nat × List Glyph) :=
  match takeRun Char.isDigit rest with
  | ([], _) => none
  | (digits, rest) => if digits.length ≤ 9 then some (Nat.ofDigitChars 10 digits 0, rest) else none

/-- Behind an exclamation mark: a handle closed by another one, or not. -/
def readHandle (rest : List Glyph) : List Char × Bool × List Glyph :=
  match takeRun isWordChar rest with
  | (word, rest) =>
    if startsWith '!' rest then ('!' :: word ++ ['!'], true, rest.drop 1)
    else ('!' :: word, false, rest)

/-- The further characters of an identifier in a tag. -/
def tagMarks : List Char :=
  [';', '/', '?', ':', '@', '&', '=', '+', '$', '.', '%', '!', '~', '*', '\'', '(', ')']

/-- The number of octets of the character that an octet starts, 0 if none. -/
def octetCount (octet : Nat) : Nat :=
  if octet < 0x80 then 1
  else if octet < 0xC0 then 0
  else if octet < 0xE0 then 2
  else if octet < 0xF0 then 3
  else if octet < 0xF8 then 4
  else 0

/-- Whether an identifier in a tag has a character, and what follows it.  Escaped
octets have to spell characters; `lacking` is the number of octets that the
current character still lacks. -/
def readTagText (isFull : Bool) : (lacking : Nat) → (isSome : Bool) → List Glyph →
    Option (Bool × List Glyph)
  | lacking, isSome, [] => if lacking == 0 then some (isSome, []) else none
  | lacking, isSome, g :: rest =>
    if g.char == '%' then
      match rest with
      | a :: b :: rest => do
        let octet ← hexNumber? [a, b]
        if lacking == 0 then
          if octetCount octet == 0 then none
          else readTagText isFull (octetCount octet - 1) true rest
        else if 0x80 ≤ octet && octet < 0xC0 then readTagText isFull (lacking - 1) true rest
        else none
      | _ => none
    else if lacking != 0 then none
    else if isWordChar g.char || tagMarks.contains g.char ||
        (isFull && [',', '[', ']'].contains g.char) then
      readTagText isFull 0 true rest
    else some (isSome, g :: rest)

/-- A tag behind its exclamation mark. -/
def readTag (inFlow : Bool) (rest : List Glyph) : Option (Token × List Glyph) := do
  let (token, rest) ←
    if startsWith '<' rest then do
      let (isSome, rest) ← readTagText true 0 false (rest.drop 1)
      if isSome && startsWith '>' rest then some (Token.tag none, rest.drop 1) else none
    else
      match readHandle rest with
      | (handle, true, rest) => do
        let (isSome, rest) ← readTagText false 0 false rest
        if isSome then some (Token.tag (some handle), rest) else none
      | (word, false, rest) => do
        let (isSome, rest) ← readTagText false 0 false rest
        let handle := if word == ['!'] && !isSome then none else some ['!']
        some (Token.tag handle, rest)
  if endsWord rest || (inFlow && startsWith ',' rest) then return (token, rest) else none

/-- An anchor or alias behind its mark. -/
def readName (rest : List Glyph) : Option (List Char × List Glyph) :=
  match takeRun isWordChar rest with
  | ([], _) => none
  | (name, rest) =>
    if endsWord rest || startsWithAny ['?', ':', ',', ']', '\x7d', '%', '@', Char.ofNat 0x60] rest then
      some (name, rest)
    else none

/-- A directive behind its percent sign, with the rest of its line. -/
def readDirective (rest : List Glyph) : Option (Token × List Glyph) := do
  let (name, rest) := takeRun isWordChar rest
  if !endsWord rest then none
  let (token, rest) ←
    if name == "YAML".toList then do
      let (major, rest) ← readVersionNumber (skipWhile isBlank rest)
      if !startsWith '.' rest then none
      let (minor, rest) ← readVersionNumber (rest.drop 1)
      some (Token.versionDirective major minor, rest)
    else if name == "TAG".toList then do
      let rest := skipWhile isBlank rest
      if !startsWith '!' rest then none
      let (handle, isClosed, rest) := readHandle (rest.drop 1)
      if !isClosed && handle != ['!'] then none
      if endsLine rest || !endsWord rest then none
      let (isSome, rest) ← readTagText true 0 false (skipWhile isBlank rest)
      if !isSome || !endsWord rest then none
      some (Token.tagDirective handle, rest)
    else none
  return (token, ← endOfLine? rest)

/-! ## Cutting a document -/

/-- A place where a key may have started. -/
structure KeyCandidate where
  isRequired : Bool
  /-- The number of tokens before the place. -/
  position : Nat
  start : Glyph

/-- A document being cut. -/
structure Cutting where
  tokens : Array Token := #[]
  /-- The column of the innermost block collection, -1 outside of all. -/
  indentation : Int := -1
  /-- The columns of the outer block collections. -/
  outer : List Int := []
  /-- A key may start at the next token. -/
  allowsKey : Bool := true
  candidate : Option KeyCandidate := none
  /-- The candidates outside the open flow collections, one for each. -/
  outerCandidates : List (Option KeyCandidate) := []

namespace Cutting

/-- A flow collection is open. -/
def inFlow (cutting : Cutting) : Bool := !cutting.outerCandidates.isEmpty

def push (cutting : Cutting) (token : Token) : Cutting :=
  { cutting with tokens := cutting.tokens.push token }

def insert (cutting : Cutting) (position : Nat) (token : Token) : Cutting :=
  { cutting with tokens := cutting.tokens.insertIdxIfInBounds position token }

/-- Opens a block collection at a column that lies further in. -/
def roll (cutting : Cutting) (column position : Nat) (token : Token) : Cutting :=
  if cutting.inFlow || (column : Int) ≤ cutting.indentation then cutting
  else
    { cutting.insert position token with
      indentation := column, outer := cutting.indentation :: cutting.outer }

/-- Closes the block collections that lie further in than a column. -/
def unroll (cutting : Cutting) (column : Int) : Cutting :=
  if cutting.inFlow then cutting
  else
    let columns := cutting.indentation :: cutting.outer
    let kept := columns.dropWhile (column < ·)
    { cutting with
      tokens := cutting.tokens ++ Array.replicate (columns.length - kept.length) Token.closeBlock
      indentation := kept.headD (-1)
      outer := kept.tail }

/-- Gives up the candidate; a required one may not be given up. -/
def dropCandidate (cutting : Cutting) : Option Cutting :=
  if cutting.candidate.any (·.isRequired) then none else some { cutting with candidate := none }

/-- Makes the next token a candidate, if a key may start there. -/
def offerCandidate (cutting : Cutting) (start : Glyph) : Option Cutting :=
  if cutting.allowsKey then do
    let isRequired := !cutting.inFlow && cutting.indentation == start.column
    let cutting ← cutting.dropCandidate
    return { cutting with candidate := some ⟨isRequired, cutting.tokens.size, start⟩ }
  else some cutting

/-- A candidate that is too far away from the next token gives way; a required
one may not. -/
def freshen (next : Glyph) : Option KeyCandidate → Option (Option KeyCandidate)
  | none => some none
  | some candidate =>
    if candidate.start.line < next.line || candidate.start.index + 1024 < next.index then
      if candidate.isRequired then none else some none
    else some (some candidate)

/-- Drops a candidate that is too far away from the next token.  The outer ones
wait: a place that is too far away stays so until it is needed. -/
def dropStale (cutting : Cutting) (next : Glyph) : Option Cutting := do
  return { cutting with candidate := ← freshen next cutting.candidate }

/-- What follows the blanks, comments and line breaks before the next token, and
whether a key may start there.  Outside flow style a line break allows it, and a
tab may not stand where a key may start.  A byte order mark may start a line. -/
def skipToToken (inFlow : Bool) : (inComment allowsKey : Bool) → List Glyph → Bool × List Glyph
  | _, allowsKey, [] => (allowsKey, [])
  | inComment, allowsKey, g :: rest =>
    if isBreak g.char then skipToToken inFlow false (allowsKey || !inFlow) rest
    else if inComment || g.char == '#' then skipToToken inFlow true allowsKey rest
    else if g.column == 0 && g.char == byteOrderMark then skipToToken inFlow false allowsKey rest
    else if g.char == ' ' || ((inFlow || !allowsKey) && g.char == '\t') then
      skipToToken inFlow false allowsKey rest
    else (allowsKey, g :: rest)

/-! ### One token -/

/-- The document so far, and what is left of it. -/
abbrev Step := Option (Cutting × List Glyph)

/-- A directive or a document marker, which ends all block collections. -/
def atMargin (cutting : Cutting) (token : Token) (rest : List Glyph) : Step := do
  let cutting ← (cutting.unroll (-1)).dropCandidate
  return ({ cutting.push token with allowsKey := false }, rest)

def openFlow (cutting : Cutting) (token : Token) (start : Glyph) (rest : List Glyph) : Step := do
  let cutting ← cutting.offerCandidate start
  return ({ cutting.push token with
    candidate := none, outerCandidates := cutting.candidate :: cutting.outerCandidates,
    allowsKey := true }, rest)

def closeFlow (cutting : Cutting) (token : Token) (rest : List Glyph) : Step := do
  let cutting := (← cutting.dropCandidate).push token
  match cutting.outerCandidates with
  | [] => return ({ cutting with allowsKey := false }, rest)
  | candidate :: outer =>
    return ({ cutting with candidate, outerCandidates := outer, allowsKey := false }, rest)

def flowEntry (cutting : Cutting) (rest : List Glyph) : Step := do
  return ({ (← cutting.dropCandidate).push .flowEntry with allowsKey := true }, rest)

/-- An entry mark outside flow style has to stand where a key may start. -/
def blockEntry (cutting : Cutting) (start : Glyph) (rest : List Glyph) : Step := do
  if !cutting.inFlow && !cutting.allowsKey then none
  let cutting ← (cutting.roll start.column cutting.tokens.size .openBlockSequence).dropCandidate
  return ({ cutting.push .blockEntry with allowsKey := true }, rest)

/-- A key mark outside flow style has to stand where a key may start. -/
def markedKey (cutting : Cutting) (start : Glyph) (rest : List Glyph) : Step := do
  if !cutting.inFlow && !cutting.allowsKey then none
  let cutting ← (cutting.roll start.column cutting.tokens.size .openBlockMapping).dropCandidate
  return ({ cutting.push .key with allowsKey := !cutting.inFlow }, rest)

/-- A value mark makes the candidate a key.  Without one it belongs to a marked
key, or to an empty one. -/
def value (cutting : Cutting) (start : Glyph) (rest : List Glyph) : Step :=
  match cutting.candidate with
  | some candidate =>
    let cutting := (cutting.insert candidate.position .key).roll candidate.start.column
      candidate.position .openBlockMapping
    some ({ cutting.push .value with candidate := none, allowsKey := false }, rest)
  | none =>
    if !cutting.inFlow && !cutting.allowsKey then none
    else
      let cutting := cutting.roll start.column cutting.tokens.size .openBlockMapping
      some ({ cutting.push .value with allowsKey := !cutting.inFlow }, rest)

/-- A name, tag or quoted text, as `read` reads it; it may start a key. -/
def keyPart (cutting : Cutting) (start : Glyph) (read : Option (Token × List Glyph)) : Step := do
  let cutting ← cutting.offerCandidate start
  let (token, rest) ← read
  return ({ cutting.push token with allowsKey := false }, rest)

def block (cutting : Cutting) (isLiteral : Bool) (rest : List Glyph) : Step := do
  let cutting ← cutting.dropCandidate
  let (text, rest) ← readBlock isLiteral cutting.indentation rest
  return ({ cutting.push (.scalar false text) with allowsKey := true }, rest)

/-- A plain text; behind one that ends a line a key may start. -/
def plain (cutting : Cutting) (start : Glyph) (text : List Glyph) : Step := do
  let cutting ← cutting.offerCandidate start
  let plain ← readPlain cutting.inFlow (cutting.indentation + 1).toNat text
  return ({ cutting.push (.scalar true plain.text) with allowsKey := plain.endsLine }, plain.rest)

/-- The characters that start no plain text. -/
def plainBarred : List Char :=
  [',', '[', ']', '\x7b', '\x7d', '#', '&', '*', '!', '|', '>', '\'', '"', '%', '@', Char.ofNat 0x60]

/-- The token that starts with `start`; `text` is `start` and what follows it. -/
def token (cutting : Cutting) (start : Glyph) (rest text : List Glyph) : Step :=
  let inFlow := cutting.inFlow
  if start.column == 0 && start.char == '%' then do
    let (token, rest) ← readDirective rest
    cutting.atMargin token rest
  else if isMarker '-' text then cutting.atMargin .documentStart (rest.drop 2)
  else if isMarker '.' text then cutting.atMargin .documentEnd (rest.drop 2)
  else
    match start.char with
    | '[' => cutting.openFlow .openFlowSequence start rest
    | '\x7b' => cutting.openFlow .openFlowMapping start rest
    | ']' => cutting.closeFlow .closeFlowSequence rest
    | '\x7d' => cutting.closeFlow .closeFlowMapping rest
    | ',' => cutting.flowEntry rest
    | '*' => cutting.keyPart start ((readName rest).map fun (name, left) => (.alias name, left))
    | '&' => cutting.keyPart start ((readName rest).map fun (name, left) => (.anchor name, left))
    | '!' => cutting.keyPart start (readTag inFlow rest)
    | '\'' =>
      cutting.keyPart start ((readQuoted '\'' rest).map fun (text, left) => (.scalar false text, left))
    | '"' =>
      cutting.keyPart start ((readQuoted '"' rest).map fun (text, left) => (.scalar false text, left))
    | c =>
      if c == '-' && endsWord rest then cutting.blockEntry start rest
      else if c == '?' && (inFlow || endsWord rest) then cutting.markedKey start rest
      else if c == ':' && (inFlow || endsWord rest) then cutting.value start rest
      else if c == '|' && !inFlow then cutting.block true rest
      else if c == '>' && !inFlow then cutting.block false rest
      else if isBlank c || isBreak c || plainBarred.contains c then none
      else cutting.plain start text

/-- All tokens from here on.  Each takes a character, so the length bounds their
number. -/
def run : (bound : Nat) → Cutting → List Glyph → Option (Array Token)
  | bound, cutting, rest =>
    let (allowsKey, rest) := skipToToken cutting.inFlow false cutting.allowsKey rest
    let cutting := { cutting with allowsKey }
    match rest with
    | [] => (cutting.unroll (-1)).dropCandidate.map Cutting.tokens
    | start :: left =>
      match bound with
      | 0 => none
      | bound + 1 => do
        let cutting ← cutting.dropStale start
        let (cutting, rest) ← (cutting.unroll start.column).token start left (start :: left)
        run bound cutting rest

end Cutting

/-- The tokens of a text. -/
def tokens? (text : String) : Option (List Token) := do
  let glyphs ← glyphs? text
  return (← Cutting.run glyphs.length {} glyphs).toList

end Yaml

end ActivityCatalogue
