import Mathlib
import ActivityCatalogue.Json.Reader
import ActivityCatalogue.Json.Writer

/-!
# The tokens of written JSON

A written text is cut into tokens again.  Cutting is bounded, but every token takes a
character, so the bound plays no part (`readAll_of_cuts`), and `Cuts` says what is left.

A piece of text `Spells` its tokens if it is cut into them whatever comes behind it.  Only
a number has to be told where it ends: no digit, point or exponent may follow, and what
the writer puts behind a value is a comma, a line break, or nothing.

* **Texts.**  Each character stands between quotes as one piece, itself or the unit of an
  escape (`exists_standsFor`), so texts are read back character by character.
* **Numbers.**  Digits are written without a leading zero, as reading asks for
  (`not_leading_zero`).
* **Brackets.**  Around parts they spell brackets around what the parts spell
  (`spells_bracketed`); lists and objects are two cases of this.
-/

namespace ActivityCatalogue

namespace Json

namespace Token

/-! ## Cutting -/

/-- A text is cut into tokens, with blanks passed over. -/
inductive Cuts : List Char → List Token → Prop
  | nil : Cuts [] []
  | blank {c : Char} {text : List Char} {tokens : List Token} (hblank : isBlank c = true)
      (hrest : Cuts text tokens) : Cuts (c :: text) tokens
  | token {c : Char} {text left : List Char} {token : Token} {tokens : List Token}
      (hlead : isBlank c = false) (hone : readOne (c :: text) = some (token, left))
      (hshorter : left.length ≤ text.length) (hrest : Cuts left tokens) :
      Cuts (c :: text) (token :: tokens)

theorem Cuts.length_le {text : List Char} {tokens : List Token} (hcuts : Cuts text tokens) :
    tokens.length ≤ text.length := by
  induction hcuts with
  | nil => exact Nat.le_refl 0
  | blank _ _ ih => exact Nat.le_succ_of_le ih
  | token _ _ hshorter _ ih => exact Nat.succ_le_succ (ih.trans hshorter)

theorem readUpTo_cons_of_blank {c : Char} (hblank : isBlank c = true) (bound : Nat)
    (text : List Char) : readUpTo bound (c :: text) = readUpTo bound text := by
  have hdrop : (c :: text).dropWhile isBlank = text.dropWhile isBlank :=
    List.dropWhile_cons_of_pos hblank
  unfold readUpTo
  simp only [hdrop]

theorem readUpTo_cons_of_not_blank {c : Char} (hlead : isBlank c = false) (bound : Nat)
    (text : List Char) :
    readUpTo (bound + 1) (c :: text) = do
      let (token, left) ← readOne (c :: text)
      return token :: (← readUpTo bound left) := by
  have hdrop : (c :: text).dropWhile isBlank = c :: text :=
    List.dropWhile_cons_of_neg (by simp [hlead])
  rw [readUpTo, hdrop]

theorem readUpTo_of_cuts {text : List Char} {tokens : List Token} (hcuts : Cuts text tokens)
    {bound : Nat} (hbound : tokens.length ≤ bound) : readUpTo bound text = some tokens := by
  induction hcuts generalizing bound with
  | nil =>
      rw [readUpTo]
      rfl
  | blank hblank _ ih =>
      rw [readUpTo_cons_of_blank hblank]
      exact ih hbound
  | token hlead hone _ _ ih =>
      cases bound with
      | zero => exact absurd hbound (Nat.not_succ_le_zero _)
      | succ bound =>
          have hrest := ih (Nat.le_of_succ_le_succ hbound)
          simp [readUpTo_cons_of_not_blank hlead, hone, hrest]

theorem readAll_of_cuts {text : String} {tokens : List Token} (hcuts : Cuts text.toList tokens) :
    readAll text = some tokens :=
  readUpTo_of_cuts hcuts hcuts.length_le

/-! ## Texts -/

/-- Between quotes a character stands as a text that is read as `piece`, and the piece stands
for the character. -/
structure StandsFor (piece : Piece) (c : Char) : Prop where
  read (text : List Char) : readPieces (escape c ++ text) = do
    let (pieces, left) ← readPieces text
    return (piece :: pieces, left)
  join (pieces : List Piece) : joinPieces (piece :: pieces) = (joinPieces pieces).map (c :: ·)

theorem readPieces_quote (rest : List Char) : readPieces ('"' :: rest) = some ([], rest) := rfl

theorem readPieces_unit (a b c d : Char) (rest : List Char) :
    readPieces ('\\' :: 'u' :: a :: b :: c :: d :: rest) = do
      let code ← hexNumber? [a, b, c, d]
      let (pieces, left) ← readPieces rest
      return (.unit code :: pieces, left) := rfl

theorem hexNumber?_hexPair :
    ∀ code < 0x20, hexNumber? ('0' :: '0' :: hexPair code) = some code := by
  decide

theorem standsFor_unit {c : Char} (hcontrol : c.toNat < 0x20)
    (hescape : escape c = '\\' :: 'u' :: '0' :: '0' :: hexPair c.toNat) :
    StandsFor (.unit c.toNat) c := by
  refine ⟨fun text => ?_, fun pieces => ?_⟩
  · have hnumber := hexNumber?_hexPair c.toNat hcontrol
    rw [hescape]
    unfold hexPair at hnumber ⊢
    simp only [List.cons_append, List.nil_append, readPieces_unit, hnumber]
    rfl
  · have hlead : isLead c.toNat = false := by simp [isLead]; omega
    have htrail : isTrail c.toNat = false := by simp [isTrail]; omega
    rw [joinPieces.eq_def]
    simp [hlead, htrail]

theorem standsFor_char {c : Char} (hcontrol : ¬ c.toNat < 0x20) (hquote : c ≠ '"')
    (hslash : c ≠ '\\') (hescape : escape c = [c]) : StandsFor (.char c) c := by
  refine ⟨fun text => ?_, fun pieces => rfl⟩
  have hplain : readPieces (c :: text) =
      (readPieces text).map fun (pieces, left) => (.char c :: pieces, left) := by
    rw [readPieces.eq_def]
    simp [hcontrol, hslash]
  rw [hescape, List.singleton_append, hplain]
  cases readPieces text with
  | none => rfl
  | some read => rfl

theorem exists_standsFor (c : Char) : ∃ piece, StandsFor piece c := by
  by_cases hnamed : c ∈ ['"', '\\', '\x08', '\x0c', '\n', '\r', '\t']
  · refine ⟨.char c, fun text => ?_, fun pieces => rfl⟩
    simp only [List.mem_cons, List.not_mem_nil, or_false] at hnamed
    rcases hnamed with rfl | rfl | rfl | rfl | rfl | rfl | rfl
    all_goals rfl
  · simp only [List.mem_cons, List.not_mem_nil, or_false, not_or] at hnamed
    have hescape : escape c =
        if c.toNat < 0x20 then '\\' :: 'u' :: '0' :: '0' :: hexPair c.toNat else [c] := by
      unfold escape
      grind
    by_cases hcontrol : c.toNat < 0x20
    · exact ⟨_, standsFor_unit hcontrol (hescape.trans (if_pos hcontrol))⟩
    · exact ⟨_, standsFor_char hcontrol hnamed.1 hnamed.2.1 (hescape.trans (if_neg hcontrol))⟩

/-- What is written between quotes is read back. -/
theorem exists_pieces (text rest : List Char) :
    ∃ pieces, readPieces (text.flatMap escape ++ '"' :: rest) = some (pieces, rest) ∧
      joinPieces pieces = some text := by
  induction text with
  | nil => exact ⟨[], readPieces_quote rest, rfl⟩
  | cons c text ih =>
      obtain ⟨pieces, hread, hjoin⟩ := ih
      obtain ⟨piece, hstands⟩ := exists_standsFor c
      refine ⟨piece :: pieces, ?_, ?_⟩
      · rw [List.flatMap_cons, List.append_assoc, hstands.read, hread]
        rfl
      · rw [hstands.join, hjoin, Option.map_some]

theorem readOne_quote (rest : List Char) : readOne ('"' :: rest) =
    (readText rest).map fun (content, left) => (atom (.string content), left) := rfl

theorem readText_quoted (content : JsonText) (rest : List Char) :
    ∃ text, quoted content = '"' :: text ∧ readText (text ++ rest) = some (content, rest) := by
  cases content with
  | none =>
      -- no text is written as the half of a surrogate pair
      have hnumber : hexNumber? ['d', '8', '0', '0'] = some 0xD800 := by decide
      have hread : readPieces ('\\' :: 'u' :: 'd' :: '8' :: '0' :: '0' :: '"' :: rest) =
          some ([.unit 0xD800], rest) := by
        rw [readPieces_unit, hnumber, readPieces_quote]
        rfl
      have hjoin : joinPieces [.unit 0xD800] = none := by decide
      refine ⟨['\\', 'u', 'd', '8', '0', '0', '"'], by decide, ?_⟩
      unfold readText
      simp only [List.cons_append, List.nil_append, hread, Option.map_some, hjoin, Option.map_none]
  | some text =>
      obtain ⟨pieces, hread, hjoin⟩ := exists_pieces text.toList rest
      refine ⟨text.toList.flatMap escape ++ ['"'], rfl, ?_⟩
      unfold readText
      simp only [List.append_assoc, List.singleton_append, hread, Option.map_some, hjoin,
        String.ofList_toList]

/-- A text between quotes is one token, also one that is no whole text. -/
theorem readOne_quoted (content : JsonText) (rest : List Char) :
    readOne (quoted content ++ rest) = some (.atom (.string content), rest) := by
  obtain ⟨text, hquoted, hread⟩ := readText_quoted content rest
  rw [hquoted, List.cons_append, readOne_quote, hread, Option.map_some]

/-! ## Numbers -/

/-- A text that cannot go on with a number at whose end it stands. -/
def EndsNumber (rest : List Char) : Prop :=
  ∀ c ∈ rest.head?, c.isDigit = false ∧ c ≠ '.' ∧ c ≠ 'e' ∧ c ≠ 'E'

theorem head?_toDigits_ne {number : Nat} (hpos : 0 < number) :
    (Nat.toDigits 10 number).head? ≠ some '0' := by
  induction number using Nat.strongRecOn with
  | ind number ih =>
      by_cases hsmall : number < 10
      · rw [Nat.toDigits_of_lt_base hsmall]
        simp [Nat.digitChar_eq_zero]
        omega
      · rw [Nat.toDigits_of_base_le (by decide) (by omega),
          List.head?_append_of_ne_nil _ Nat.toDigits_ne_nil]
        exact ih (number / 10) (by omega) (by omega)

/-- No number is written with a zero before other digits. -/
theorem not_leading_zero (number : Nat) :
    ¬ ((Nat.toDigits 10 number).head? = some '0' ∧ (Nat.toDigits 10 number).length ≠ 1) := by
  rintro ⟨hhead, hlength⟩
  rcases Nat.eq_zero_or_pos number with rfl | hpos
  · exact hlength rfl
  · exact head?_toDigits_ne hpos hhead

theorem exists_toDigits_eq_cons (number : Nat) :
    ∃ digit digits, Nat.toDigits 10 number = digit :: digits ∧ digit.isDigit = true := by
  cases hnumber : Nat.toDigits 10 number with
  | nil => exact absurd hnumber Nat.toDigits_ne_nil
  | cons digit digits =>
      refine ⟨digit, digits, rfl, ?_⟩
      exact Nat.isDigit_of_mem_toDigits (by decide) (by decide) (hnumber ▸ List.mem_cons_self)

theorem readDigits_toDigits (number : Nat) {rest : List Char}
    (hrest : ∀ c ∈ rest.head?, c.isDigit = false) :
    readDigits (Nat.toDigits 10 number ++ rest) = some (Nat.toDigits 10 number, rest) := by
  have hdigits : ∀ c ∈ Nat.toDigits 10 number, c.isDigit = true := fun c hc =>
    Nat.isDigit_of_mem_toDigits (by decide) (by decide) hc
  have hstop : rest.takeWhile Char.isDigit = [] ∧ rest.dropWhile Char.isDigit = rest := by
    cases rest with
    | nil => exact ⟨rfl, rfl⟩
    | cons c rest => simp [hrest c rfl]
  obtain ⟨digit, digits, hnumber, -⟩ := exists_toDigits_eq_cons number
  unfold readDigits
  rw [List.takeWhile_append_of_pos hdigits, List.dropWhile_append_of_pos hdigits, hstop.1,
    hstop.2, List.append_nil, hnumber]

/-- The sign of a number is read off before everything else. -/
theorem readNumber_sign (negative : Bool) {unsigned : List Char}
    (hunsigned : unsigned.head? ≠ some '-') :
    readNumber ((if negative then ['-'] else []) ++ unsigned) = do
      let (whole, behindWhole) ← readDigits unsigned
      if whole.head? == some '0' && whole.length != 1 then none
      let (fraction, behindFraction) ← readFraction behindWhole
      let (exponent, rest) ← readExponent behindFraction
      let places := fraction.getD []
      return (if !negative && fraction.isNone && exponent.isNone then
          natural (Nat.ofDigitChars 10 whole 0)
        else decimal negative (Nat.ofDigitChars 10 (whole ++ places) 0)
          (exponent.getD 0 - (places.length : Int)), rest) := by
  cases negative with
  | true => rfl
  | false =>
      cases unsigned with
      | nil => rfl
      | cons c unsigned =>
          have hc : c ≠ '-' := fun heq => hunsigned (congrArg some heq)
          unfold readNumber
          simp [hc]

theorem head?_toDigits_append_ne (number : Nat) (rest : List Char) {c : Char}
    (hc : c.isDigit = false) : (Nat.toDigits 10 number ++ rest).head? ≠ some c := by
  obtain ⟨digit, digits, hnumber, hdigit⟩ := exists_toDigits_eq_cons number
  rw [hnumber]
  rintro ⟨⟩
  rw [hdigit] at hc
  exact nomatch hc

theorem readFraction_of_ne {rest : List Char} (hrest : rest.head? ≠ some '.') :
    readFraction rest = some (none, rest) := by
  cases rest with
  | nil => rfl
  | cons c rest =>
      have hc : c ≠ '.' := fun heq => hrest (congrArg some heq)
      unfold readFraction
      simp [hc]

theorem readExponent_of_ends {rest : List Char} (hrest : EndsNumber rest) :
    readExponent rest = some (none, rest) := by
  cases rest with
  | nil => rfl
  | cons c rest =>
      obtain ⟨-, -, he, hE⟩ := hrest c rfl
      unfold readExponent
      simp [he, hE]

theorem readExponent_written (scale : Int) {rest : List Char} (hrest : EndsNumber rest) :
    readExponent ('e' :: ((if scale < 0 then ['-'] else []) ++ Nat.toDigits 10 scale.natAbs) ++
      rest) = some (some scale, rest) := by
  have hdigits := readDigits_toDigits scale.natAbs fun c hc => (hrest c hc).1
  have hvalue : Nat.ofDigitChars 10 (Nat.toDigits 10 scale.natAbs) 0 = scale.natAbs :=
    Nat.ofDigitChars_toDigits (by decide) (by decide)
  unfold readExponent
  by_cases hnegative : scale < 0
  · simp [hnegative, hdigits, hvalue, abs_of_neg hnegative]
  · obtain ⟨digit, digits, hnumber, hdigit⟩ := exists_toDigits_eq_cons scale.natAbs
    have hminus : digit ≠ '-' := fun heq => by simp [heq] at hdigit
    have hplus : digit ≠ '+' := fun heq => by simp [heq] at hdigit
    rw [hnumber] at hdigits hvalue
    rw [List.cons_append] at hdigits
    simp [hnegative, hnumber, hminus, hplus, hdigits, hvalue]
    omega

theorem readNumber_natural (number : Nat) {rest : List Char} (hrest : EndsNumber rest) :
    readNumber (Nat.toDigits 10 number ++ rest) = some (.natural number, rest) := by
  have hdigits := readDigits_toDigits number fun c hc => (hrest c hc).1
  have hfraction := readFraction_of_ne fun hpoint => (hrest '.' hpoint).2.1 rfl
  have hvalue : Nat.ofDigitChars 10 (Nat.toDigits 10 number) 0 = number :=
    Nat.ofDigitChars_toDigits (by decide) (by decide)
  have hread := readNumber_sign false (head?_toDigits_append_ne number rest (c := '-') rfl)
  simpa [hdigits, hfraction, readExponent_of_ends hrest, hvalue, not_leading_zero number]
    using hread

theorem written_decimal (level : Nat) (negative : Bool) (digits : Nat) (scale : Int) :
    written level (.decimal negative digits scale) =
      (if negative then ['-'] else []) ++ Nat.toDigits 10 digits ++
        'e' :: ((if scale < 0 then ['-'] else []) ++ Nat.toDigits 10 scale.natAbs) := rfl

theorem readNumber_decimal (level : Nat) (negative : Bool) (digits : Nat) (scale : Int)
    {rest : List Char} (hrest : EndsNumber rest) :
    readNumber (written level (.decimal negative digits scale) ++ rest) =
      some (.decimal negative digits scale, rest) := by
  have hexponent := readExponent_written scale hrest
  generalize hbehind : 'e' :: ((if scale < 0 then ['-'] else []) ++
    Nat.toDigits 10 scale.natAbs) ++ rest = behind at hexponent
  have hmark : behind.head? = some 'e' := hbehind ▸ rfl
  have hdigits : readDigits (Nat.toDigits 10 digits ++ behind) =
      some (Nat.toDigits 10 digits, behind) := by
    refine readDigits_toDigits digits fun c hc => ?_
    obtain rfl : c = 'e' := Option.some.inj (hc.symm.trans hmark)
    decide
  have hfraction : readFraction behind = some (none, behind) :=
    readFraction_of_ne (by simp [hmark])
  have hvalue : Nat.ofDigitChars 10 (Nat.toDigits 10 digits) 0 = digits :=
    Nat.ofDigitChars_toDigits (by decide) (by decide)
  have hwritten : written level (.decimal negative digits scale) ++ rest =
      (if negative then ['-'] else []) ++ (Nat.toDigits 10 digits ++ behind) := by
    simp [written_decimal, ← hbehind]
  have hread := readNumber_sign negative (head?_toDigits_append_ne digits behind (c := '-') rfl)
  rw [hwritten, hread]
  simp [hdigits, hfraction, hexponent, hvalue, not_leading_zero digits]

/-- What starts like a number is one, if it is a token. -/
theorem readOne_of_number {c : Char} {text : List Char} (hlead : c.isDigit = true ∨ c = '-') :
    readOne (c :: text) = (readNumber (c :: text)).map fun (value, left) => (atom value, left) := by
  have hliteral : readLiteral (c :: text) = none := by
    have hn : c ≠ 'n' := by rintro rfl; simp at hlead
    have ht : c ≠ 't' := by rintro rfl; simp at hlead
    have hf : c ≠ 'f' := by rintro rfl; simp at hlead
    simp [readLiteral, hn.symm, ht.symm, hf.symm]
  have hspecial : c ∉ ['[', ']', '\x7b', '\x7d', ',', ':', '"'] := by
    intro hc
    simp only [List.mem_cons, List.not_mem_nil, or_false] at hc
    rcases hc with rfl | rfl | rfl | rfl | rfl | rfl | rfl
    all_goals simp at hlead
  simp only [List.mem_cons, List.not_mem_nil, or_false, not_or] at hspecial
  unfold readOne
  simp [hspecial, hliteral]

/-! ## What a text spells -/

/-- A text is cut into tokens, whatever comes behind it that ends a number. -/
def Spells (text : List Char) (tokens : List Token) : Prop :=
  ∀ rest more, EndsNumber rest → Cuts rest more → Cuts (text ++ rest) (tokens ++ more)

/-- A text with a visible start that is read as one token spells that token. -/
theorem spells_of_readOne {c : Char} {text : List Char} {token : Token}
    (hlead : isBlank c = false)
    (hone : ∀ rest, EndsNumber rest → readOne (c :: text ++ rest) = some (token, rest)) :
    Spells (c :: text) [token] := by
  intro rest more hends hcuts
  have hshorter : rest.length ≤ (text ++ rest).length := by simp
  exact .token hlead (hone rest hends) hshorter hcuts

/-- A character that is a token by itself, whatever follows it. -/
structure IsMark (c : Char) (token : Token) : Prop where
  lead : isBlank c = false
  ends : ∀ rest, EndsNumber (c :: rest)
  one : ∀ rest, readOne (c :: rest) = some (token, rest)

theorem IsMark.cuts {c : Char} {token : Token} (hmark : IsMark c token) {rest : List Char}
    {more : List Token} (hcuts : Cuts rest more) : Cuts (c :: rest) (token :: more) :=
  .token hmark.lead (hmark.one rest) (Nat.le_refl _) hcuts

theorem endsNumber_cons {c : Char}
    (hc : c.isDigit = false ∧ c ≠ '.' ∧ c ≠ 'e' ∧ c ≠ 'E') (rest : List Char) :
    EndsNumber (c :: rest) := by
  rintro d ⟨⟩
  exact hc

theorem isMark_of_mem {c : Char} {token : Token} (hc : c ∈ ['[', ']', '\x7b', '\x7d', ',', ':'])
    (hone : ∀ rest, readOne (c :: rest) = some (token, rest)) : IsMark c token := by
  simp only [List.mem_cons, List.not_mem_nil, or_false] at hc
  rcases hc with rfl | rfl | rfl | rfl | rfl | rfl
  all_goals exact ⟨by decide, endsNumber_cons (by decide), hone⟩

theorem isMark_openList : IsMark '[' openList := isMark_of_mem (by decide) fun _ => rfl

theorem isMark_closeList : IsMark ']' closeList := isMark_of_mem (by decide) fun _ => rfl

theorem isMark_openObject : IsMark '\x7b' openObject := isMark_of_mem (by decide) fun _ => rfl

theorem isMark_closeObject : IsMark '\x7d' closeObject := isMark_of_mem (by decide) fun _ => rfl

theorem isMark_comma : IsMark ',' comma := isMark_of_mem (by decide) fun _ => rfl

theorem isMark_colon : IsMark ':' colon := isMark_of_mem (by decide) fun _ => rfl

theorem endsNumber_newLine (level : Nat) (rest : List Char) : EndsNumber (newLine level ++ rest) :=
  endsNumber_cons (by decide) _

theorem cuts_newLine (level : Nat) {text : List Char} {tokens : List Token}
    (hcuts : Cuts text tokens) : Cuts (newLine level ++ text) tokens := by
  have hspaces : ∀ count, Cuts (List.replicate count ' ' ++ text) tokens := by
    intro count
    induction count with
    | zero => exact hcuts
    | succ count ih => exact .blank (by decide) ih
  exact .blank (by decide) (hspaces (2 * level))

/-- The tokens of parts with commas between them. -/
def divided (parts : List (List Token)) : List Token := [comma].intercalate parts

@[simp] theorem divided_singleton (part : List Token) : divided [part] = part :=
  List.intercalate_singleton

@[simp] theorem divided_cons_cons (part next : List Token) (parts : List (List Token)) :
    divided (part :: next :: parts) = part ++ comma :: divided (next :: parts) := by
  simp [divided, List.intercalate_cons_cons]

/-- Parts with commas between them, each but the first on a new line. -/
theorem cuts_intercalate (level : Nat) {parts : List (List Char)} {spelled : List (List Token)}
    (hparts : List.Forall₂ Spells parts spelled) {rest : List Char} {more : List Token}
    (hends : EndsNumber rest) (hcuts : Cuts rest more) :
    Cuts ((',' :: newLine level).intercalate parts ++ rest) (divided spelled ++ more) := by
  induction hparts with
  | nil => exact hcuts
  | @cons part tokens parts spelled hpart hmore ih =>
      cases hmore with
      | nil => simpa using hpart rest more hends hcuts
      | cons hnext hlater =>
          rw [List.intercalate_cons_cons, divided_cons_cons]
          simp only [List.append_assoc, List.cons_append]
          exact hpart _ _ (isMark_comma.ends _) (isMark_comma.cuts (cuts_newLine level ih))

/-- Brackets around parts spell the brackets around what the parts spell. -/
theorem spells_bracketed (level : Nat) {opening closing : Char} {first last : Token}
    (hopening : IsMark opening first) (hclosing : IsMark closing last)
    {parts : List (List Char)} {spelled : List (List Token)}
    (hparts : List.Forall₂ Spells parts spelled) :
    Spells (bracketed level opening closing parts)
      (first :: (divided spelled ++ [last])) := by
  intro rest more _ hcuts
  have hclosed : Cuts (closing :: rest) (last :: more) := hclosing.cuts hcuts
  cases hparts with
  | nil => exact hopening.cuts hclosed
  | cons hpart hmore =>
      have hinside := cuts_intercalate (level + 1) (.cons hpart hmore)
        (endsNumber_newLine level (closing :: rest)) (cuts_newLine level hclosed)
      have hcut := hopening.cuts (cuts_newLine (level + 1) hinside)
      simpa [bracketed] using hcut

/-! ## Values without parts -/

theorem spells_null : Spells "null".toList [.atom null] :=
  spells_of_readOne (by decide) fun _ _ => rfl

theorem spells_true : Spells "true".toList [.atom (bool true)] :=
  spells_of_readOne (by decide) fun _ _ => rfl

theorem spells_false : Spells "false".toList [.atom (bool false)] :=
  spells_of_readOne (by decide) fun _ _ => rfl

/-- Whatever starts like a number and is read as one spells it. -/
theorem spells_number {c : Char} {text : List Char} {value : Json}
    (hlead : c.isDigit = true ∨ c = '-')
    (hread : ∀ rest, EndsNumber rest → readNumber (c :: text ++ rest) = some (value, rest)) :
    Spells (c :: text) [.atom value] := by
  have hvisible : isBlank c = false := by
    simp only [isBlank, Bool.or_eq_false_iff, beq_eq_false_iff_ne]
    refine ⟨⟨⟨?_, ?_⟩, ?_⟩, ?_⟩
    all_goals
      rintro rfl
      simp at hlead
  refine spells_of_readOne hvisible fun rest hends => ?_
  have hnumber := hread rest hends
  rw [List.cons_append] at hnumber ⊢
  rw [readOne_of_number hlead, hnumber, Option.map_some]

theorem spells_natural (number : Nat) :
    Spells (Nat.toDigits 10 number) [.atom (natural number)] := by
  have hread : ∀ rest, EndsNumber rest →
      readNumber (Nat.toDigits 10 number ++ rest) = some (.natural number, rest) :=
    fun _ => readNumber_natural number
  obtain ⟨digit, digits, hnumber, hdigit⟩ := exists_toDigits_eq_cons number
  rw [hnumber] at hread ⊢
  exact spells_number (Or.inl hdigit) hread

theorem spells_decimal (level : Nat) (negative : Bool) (digits : Nat) (scale : Int) :
    Spells (written level (.decimal negative digits scale))
      [.atom (.decimal negative digits scale)] := by
  have hread : ∀ rest, EndsNumber rest →
      readNumber (written level (.decimal negative digits scale) ++ rest) =
        some (.decimal negative digits scale, rest) :=
    fun _ => readNumber_decimal level negative digits scale
  cases negative with
  | true => exact spells_number (Or.inr rfl) hread
  | false =>
      obtain ⟨digit, more, hdigits, hdigit⟩ := exists_toDigits_eq_cons digits
      have hwritten : ∃ text, written level (.decimal false digits scale) = digit :: text := by
        simp [written_decimal, hdigits]
      obtain ⟨text, htext⟩ := hwritten
      rw [htext] at hread ⊢
      exact spells_number (Or.inl hdigit) hread

theorem spells_quoted (content : JsonText) : Spells (quoted content) [.atom (.string content)] := by
  have hread := readOne_quoted content
  obtain ⟨text, hquoted, -⟩ := readText_quoted content []
  rw [hquoted] at hread ⊢
  exact spells_of_readOne (by decide) fun rest _ => hread rest

/-- A member is a name and a value behind a colon. -/
theorem spells_member (name : JsonText) {text : List Char} {tokens : List Token}
    (hvalue : Spells text tokens) :
    Spells (quoted name ++ ':' :: ' ' :: text) (.atom (.string name) :: .colon :: tokens) := by
  intro rest more hends hcuts
  have hcolon : Cuts (':' :: ' ' :: (text ++ rest)) (.colon :: (tokens ++ more)) :=
    isMark_colon.cuts (.blank (by decide) (hvalue rest more hends hcuts))
  have hname := spells_quoted name _ _ (isMark_colon.ends _) hcolon
  simpa using hname

end Token

end Json

end ActivityCatalogue
