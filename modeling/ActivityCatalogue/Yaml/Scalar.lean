import ActivityCatalogue.Yaml.Glyph

/-!
# Scalars

The three ways to write a text: plain, between quotes, and as a block of lines.
Plain and quoted texts fold their line breaks: a single break becomes a blank,
and of several breaks the first one is dropped.  A block keeps its lines, or
folds the breaks between lines that do not start with a blank.
-/

namespace ActivityCatalogue

namespace Yaml

/-! ## Gaps in plain and quoted texts -/

/-- The blanks and breaks between two words. -/
structure Gap where
  /-- The blanks, as long as no break was met. -/
  blanks : List Char := []
  /-- The first break; nothing is left of an escaped one. -/
  firstBreak : Option (List Char) := none
  furtherBreaks : List Char := []

namespace Gap

/-- What a gap contributes to the text. -/
def folded (gap : Gap) : List Char :=
  match gap.firstBreak with
  | none => gap.blanks
  | some ['\n'] => if gap.furtherBreaks.isEmpty then [' '] else gap.furtherBreaks
  | some kept => kept ++ gap.furtherBreaks

/-- The breaks from here on, without the blanks among them.  No tab may stand
before the column `floor`. -/
def readBreaks (floor : Nat) : List Glyph → Option (List Char × List Glyph)
  | [] => some ([], [])
  | g :: rest =>
    if isBlank g.char then
      if g.char == '\t' && g.column < floor then none else readBreaks floor rest
    else if isBreak g.char then
      (readBreaks floor rest).map fun (breaks, left) => (g.char :: breaks, left)
    else some ([], g :: rest)

/-- The gap that starts here.  In a line after a break no tab may stand before
the column `floor`. -/
def read (floor : Nat) (rest : List Glyph) : Option (Gap × List Glyph) :=
  match takeRun isBlank rest with
  | (blanks, []) => some ({ blanks }, [])
  | (blanks, g :: left) =>
    if isBreak g.char then
      (readBreaks floor left).map fun (furtherBreaks, left) =>
        ({ firstBreak := some [g.char], furtherBreaks }, left)
    else some ({ blanks }, g :: left)

/-- The gap behind an escaped break. -/
def readEscaped (rest : List Glyph) : Option (Gap × List Glyph) :=
  (readBreaks 0 rest).map fun (furtherBreaks, left) => ({ firstBreak := some [], furtherBreaks }, left)

end Gap

/-! ## Plain texts -/

/-- The characters that structure a collection in flow style. -/
def flowMarks : List Char := [',', '[', ']', '\x7b', '\x7d']

/-- A word of a plain text: up to a blank, a colon that ends a word, or, in flow
style, a mark.  A colon right before a mark is an error there. -/
def readPlainWord (inFlow : Bool) : List Glyph → Option (List Char × List Glyph)
  | [] => some ([], [])
  | g :: rest =>
    if isBlank g.char || isBreak g.char then some ([], g :: rest)
    else if inFlow && g.char == ':' && startsWithAny ('?' :: flowMarks) rest then none
    else if (g.char == ':' && endsWord rest) || (inFlow && flowMarks.contains g.char) then
      some ([], g :: rest)
    else (readPlainWord inFlow rest).map fun (word, left) => (g.char :: word, left)

/-- What reading a plain text gives. -/
structure Plain where
  text : List Char
  /-- The text ends in a gap with a line break. -/
  endsLine : Bool
  rest : List Glyph

/-- The words from here on, each behind its gap; outside flow style a line that
starts before the column `floor` ends the text.  Each round takes a word, so the
length bounds their number. -/
def readPlainWords (inFlow : Bool) (floor : Nat) : (bound : Nat) → Gap → List Glyph → Option Plain
  | 0, _, _ => none
  | bound + 1, gap, rest =>
    if isDocumentMarker rest || startsWith '#' rest then
      some ⟨[], gap.firstBreak.isSome, rest⟩
    else do
      let (word, behindWord) ← readPlainWord inFlow rest
      if word.isEmpty then return ⟨[], gap.firstBreak.isSome, behindWord⟩
      let text := gap.folded ++ word
      match behindWord with
      | [] => return ⟨text, false, []⟩
      | g :: _ =>
        if !isBlank g.char && !isBreak g.char then return ⟨text, false, behindWord⟩
        let (next, behindGap) ← Gap.read floor behindWord
        let isOut := !inFlow && behindGap.head?.any fun g => g.column < floor
        if isOut then return ⟨text, next.firstBreak.isSome, behindGap⟩
        let more ← readPlainWords inFlow floor bound next behindGap
        return { more with text := text ++ more.text }

/-- The plain text that starts here. -/
def readPlain (inFlow : Bool) (floor : Nat) (rest : List Glyph) : Option Plain :=
  readPlainWords inFlow floor (rest.length + 1) {} rest

/-! ## Quoted texts -/

def hexDigit? (c : Char) : Option Nat :=
  if c.isDigit then some (c.toNat - '0'.toNat)
  else if 'a' ≤ c && c ≤ 'f' then some (c.toNat - 'a'.toNat + 10)
  else if 'A' ≤ c && c ≤ 'F' then some (c.toNat - 'A'.toNat + 10)
  else none

/-- The number that hexadecimal digits denote. -/
def hexNumber? (digits : List Glyph) : Option Nat :=
  digits.foldlM (fun number digit => (hexDigit? digit.char).map (number * 16 + ·)) 0

/-- The character with the code that hexadecimal digits denote. -/
def hexChar? (digits : List Glyph) : Option Char := do
  let code ← hexNumber? digits
  if code.isValidChar then some (Char.ofNat code) else none

/-- The character behind a backslash stands for this one. -/
def escaped? (c : Char) : Option Char :=
  [('0', '\x00'), ('a', '\x07'), ('b', '\x08'), ('t', '\t'), ('\t', '\t'), ('n', '\n'),
    ('v', '\x0b'), ('f', '\x0c'), ('r', '\r'), ('e', '\x1b'), (' ', ' '), ('"', '"'), ('/', '/'),
    ('\\', '\\'), ('N', '\u0085'), ('_', '\u00a0'), ('L', '\u2028'), ('P', '\u2029')].lookup c

/-- A word of a quoted text, and whether an escaped line break ends it. -/
abbrev QuotedWord := List Char × Bool × List Glyph

/-- The word with one more character before it. -/
def QuotedWord.cons (c : Char) (word : QuotedWord) : QuotedWord := (c :: word.1, word.2)

/-- A word between single quotes, where a quote is written twice. -/
def readSingleWord : List Glyph → QuotedWord
  | [] => ([], false, [])
  | g :: rest =>
    if isBlank g.char || isBreak g.char then ([], false, g :: rest)
    else if g.char == '\'' then
      match rest with
      | quote :: rest =>
        if quote.char == '\'' then (readSingleWord rest).cons '\'' else ([], false, g :: quote :: rest)
      | [] => ([], false, [g])
    else (readSingleWord rest).cons g.char

/-- A word between double quotes, where a backslash escapes. -/
def readDoubleWord : List Glyph → Option QuotedWord
  | [] => some ([], false, [])
  | g :: rest =>
    if isBlank g.char || isBreak g.char || g.char == '"' then some ([], false, g :: rest)
    else if g.char == '\\' then
      match rest with
      | [] => none
      | mark :: rest =>
        if isBreak mark.char then some ([], true, rest)
        else if mark.char == 'x' then
          match rest with
          | a :: b :: rest => do return (← readDoubleWord rest).cons (← hexChar? [a, b])
          | _ => none
        else if mark.char == 'u' then
          match rest with
          | a :: b :: c :: d :: rest => do
            return (← readDoubleWord rest).cons (← hexChar? [a, b, c, d])
          | _ => none
        else if mark.char == 'U' then
          match rest with
          | a :: b :: c :: d :: e :: f :: g :: h :: rest => do
            return (← readDoubleWord rest).cons (← hexChar? [a, b, c, d, e, f, g, h])
          | _ => none
        else do return (← readDoubleWord rest).cons (← escaped? mark.char)
    else (readDoubleWord rest).map (QuotedWord.cons g.char)

/-- The words up to the closing quote.  Each round but the last takes a gap, so
the length bounds their number. -/
def readQuotedWords (quote : Char) : (bound : Nat) → List Glyph → Option (List Char × List Glyph)
  | 0, _ => none
  | bound + 1, rest =>
    if isDocumentMarker rest then none
    else do
      let (word, escapedBreak, behindWord) ←
        if quote == '\'' then some (readSingleWord rest) else readDoubleWord rest
      match behindWord with
      | [] => none
      | g :: left =>
        if g.char == quote then return (word, left)
        let (gap, behindGap) ←
          if escapedBreak then Gap.readEscaped behindWord else Gap.read 0 behindWord
        let (more, left) ← readQuotedWords quote bound behindGap
        return (word ++ gap.folded ++ more, left)

/-- The quoted text behind the opening quote. -/
def readQuoted (quote : Char) (rest : List Glyph) : Option (List Char × List Glyph) :=
  readQuotedWords quote (rest.length + 1) rest

/-! ## Blocks of lines -/

/-- What happens to the line breaks at the end of a block. -/
inductive Chomping where
  | strip
  | clip
  | keep
  deriving DecidableEq

/-- A chomping mark, if one stands here. -/
def readChomping : List Glyph → Option Chomping × List Glyph
  | g :: rest =>
    if g.char == '+' then (some .keep, rest)
    else if g.char == '-' then (some .strip, rest)
    else (none, g :: rest)
  | [] => (none, [])

/-- An indentation mark, 0 if none stands here; it may not be written as 0. -/
def readIncrement : List Glyph → Option (Nat × List Glyph)
  | g :: rest =>
    if g.char == '0' then none
    else if g.char.isDigit then some (g.char.toNat - '0'.toNat, rest)
    else some (0, g :: rest)
  | [] => some (0, [])

/-- The marks behind the start of a block, in either order. -/
def readBlockMarks (rest : List Glyph) : Option (Chomping × Nat × List Glyph) := do
  match readChomping rest with
  | (some chomping, rest) =>
    let (increment, rest) ← readIncrement rest
    return (chomping, increment, rest)
  | (none, rest) =>
    let (increment, rest) ← readIncrement rest
    if increment == 0 then return (.clip, 0, rest)
    let (chomping, rest) := readChomping rest
    return (chomping.getD .clip, increment, rest)

/-- What reading the breaks between the lines of a block gives. -/
structure BlockBreaks where
  breaks : List Char
  /-- The greatest column that was met. -/
  widest : Nat
  rest : List Glyph

/-- The breaks from here on, and the blanks up to the indentation, which is open
if it is 0.  No tab may stand in the indentation. -/
def readBlockBreaks (indentation : Nat) : (widest : Nat) → List Glyph → Option BlockBreaks
  | widest, [] => some ⟨[], widest, []⟩
  | widest, g :: rest =>
    let isIndented := indentation == 0 || g.column < indentation
    if isIndented && g.char == ' ' then readBlockBreaks indentation widest rest
    else if isIndented && g.char == '\t' then none
    else if isBreak g.char then do
      let more ← readBlockBreaks indentation (max widest g.column) rest
      return { more with breaks := g.char :: more.breaks }
    else some ⟨[], max widest g.column, g :: rest⟩

/-- How a line of a block ends: its break, the breaks behind that, and whether the
line starts with a blank. -/
structure LineEnd where
  lastBreak : List Char := []
  furtherBreaks : List Char := []
  startsBlank : Bool := false

/-- The breaks before a further line that starts with a blank or not. -/
def LineEnd.joint (lineEnd : LineEnd) (isLiteral nextBlank : Bool) : List Char :=
  if !isLiteral && lineEnd.lastBreak == ['\n'] && !lineEnd.startsBlank && !nextBlank then
    if lineEnd.furtherBreaks.isEmpty then [' '] else lineEnd.furtherBreaks
  else lineEnd.lastBreak ++ lineEnd.furtherBreaks

/-- The lines of the given indentation from here on, and how the last one ends.
Each takes a character. -/
def readBlockLines (isLiteral : Bool) (indentation : Nat) :
    (bound : Nat) → LineEnd → List Glyph → Option (List Char × LineEnd × List Glyph)
  | _, lineEnd, [] => some ([], lineEnd, [])
  | 0, _, _ => none
  | bound + 1, lineEnd, g :: rest =>
    if g.column != indentation then some ([], lineEnd, g :: rest)
    else do
      let startsBlank := isBlank g.char
      let (line, behindLine) := takeRun (fun c => !isBreak c) (g :: rest)
      let found ← readBlockBreaks indentation 0 (behindLine.drop 1)
      let (more, last, left) ← readBlockLines isLiteral indentation bound
        ⟨(behindLine.head?.map Glyph.char).toList, found.breaks, startsBlank⟩ found.rest
      return (lineEnd.joint isLiteral startsBlank ++ line ++ more, last, left)

/-- The block behind its first character, in a collection of the given
indentation, -1 outside of all. -/
def readBlock (isLiteral : Bool) (outer : Int) (rest : List Glyph) :
    Option (List Char × List Glyph) := do
  let (chomping, increment, rest) ← readBlockMarks rest
  let rest ← endOfLine? rest
  let given : Nat := if increment == 0 then 0 else (max outer 0).toNat + increment
  let leading ← readBlockBreaks given 0 rest
  let indentation :=
    if given == 0 then max (max leading.widest (outer + 1).toNat) 1 else given
  let (text, last, left) ← readBlockLines isLiteral indentation rest.length
    { furtherBreaks := leading.breaks } leading.rest
  let tail := match chomping with
    | .strip => []
    | .clip => last.lastBreak
    | .keep => last.lastBreak ++ last.furtherBreaks
  return (text ++ tail, left)

end Yaml

end ActivityCatalogue
