import ActivityCatalogue.Proofs.PartReading

/-!
# Scanning type names by bytes

The reader of type names carries the text that is left.  A scanner that only knows the number of
bytes before it has to cut everything that it looks at from the whole text, and it may cut where
no character begins.  This is such a scanner, with the same grammar: `peek` cuts off what is left,
and names, namespaces and brackets are cut out between two offsets.

It counts the nesting of arguments in a counter that goes up and down, and it goes on for as long
as it likes: a loop ends when its condition fails, and the arguments are counted up to the
announced arity.  What is not to happen makes it stray, and every change of the offset or the
counter leaves a station, so that one can tell afterwards where it has been.
-/

namespace ActivityCatalogue

namespace TypeName

/-! ## Cutting a text by bytes -/

/-- What follows so many bytes, if a character ends there. -/
def charsFrom? : (bytes : Nat) → List Char → Option (List Char)
  | 0, text => some text
  | _ + 1, [] => none
  | bytes + 1, c :: rest =>
    if c.utf8Size ≤ bytes + 1 then charsFrom? (bytes + 1 - c.utf8Size) rest else none

/-- What fills so many bytes, if a character ends there. -/
def charsUpTo? : (bytes : Nat) → List Char → Option (List Char)
  | 0, _ => some []
  | _ + 1, [] => none
  | bytes + 1, c :: rest =>
    if c.utf8Size ≤ bytes + 1 then (charsUpTo? (bytes + 1 - c.utf8Size) rest).map (c :: ·) else none

/-- What stands between two offsets. -/
def slice? (first last : Nat) (text : List Char) : Option (List Char) :=
  if first ≤ last then (charsFrom? first text).bind (charsUpTo? (last - first)) else none

theorem charsFrom?_cons (c : Char) (rest : List Char) (bytes : Nat) :
    charsFrom? (c.utf8Size + bytes) (c :: rest) = charsFrom? bytes rest := by
  obtain ⟨size, hsize⟩ := Nat.exists_eq_add_one_of_ne_zero c.utf8Size_pos.ne'
  rw [hsize, Nat.add_right_comm, charsFrom?, hsize, if_pos (by omega)]
  congr 1
  omega

theorem charsUpTo?_cons (c : Char) (rest : List Char) (bytes : Nat) :
    charsUpTo? (c.utf8Size + bytes) (c :: rest) = (charsUpTo? bytes rest).map (c :: ·) := by
  obtain ⟨size, hsize⟩ := Nat.exists_eq_add_one_of_ne_zero c.utf8Size_pos.ne'
  rw [hsize, Nat.add_right_comm, charsUpTo?, hsize, if_pos (by omega)]
  congr 2
  omega

theorem charsFrom?_width (before rest : List Char) :
    charsFrom? (width before) (before ++ rest) = some rest := by
  induction before with
  | nil => cases rest <;> rfl
  | cons c before ih => rw [width, List.cons_append, charsFrom?_cons, ih]

theorem charsUpTo?_width (taken rest : List Char) :
    charsUpTo? (width taken) (taken ++ rest) = some taken := by
  induction taken with
  | nil => cases rest <;> rfl
  | cons c taken ih => rw [width, List.cons_append, charsUpTo?_cons, ih, Option.map_some]

theorem exists_of_charsFrom? {bytes : Nat} {text rest : List Char}
    (hrest : charsFrom? bytes text = some rest) :
    ∃ before, text = before ++ rest ∧ width before = bytes := by
  fun_induction charsFrom? bytes text with
  | case1 text =>
      cases hrest
      exact ⟨[], rfl, rfl⟩
  | case2 bytes => exact nomatch hrest
  | case3 bytes c more hfits ih =>
      obtain ⟨before, rfl, hbefore⟩ := ih hrest
      refine ⟨c :: before, rfl, ?_⟩
      rw [width, hbefore]
      omega
  | case4 bytes c more hfits => exact nomatch hrest

/-- So many bytes are some characters of the text. -/
def IsBoundary (text : List Char) (offset : Nat) : Prop :=
  ∃ before rest, text = before ++ rest ∧ width before = offset

theorem isBoundary_iff_isValid {text : String} {offset : Nat} :
    IsBoundary text.toList offset ↔ (⟨offset⟩ : String.Pos.Raw).IsValid text := by
  rw [String.Pos.Raw.isValid_iff_exists_append]
  constructor
  · rintro ⟨before, rest, htext, rfl⟩
    refine ⟨String.ofList before, String.ofList rest, ?_, ?_⟩
    · rw [← String.ofList_append, ← htext, String.ofList_toList]
    · rw [String.Pos.Raw.ext_iff, String.byteIdx_rawEndPos, ← width_toList, String.toList_ofList]
  · rintro ⟨before, rest, rfl, hoffset⟩
    refine ⟨before.toList, rest.toList, String.toList_append, ?_⟩
    rw [width_toList, ← String.byteIdx_rawEndPos, ← hoffset]

/-- A text can be cut at its boundaries, and nowhere else. -/
theorem isSome_charsFrom?_iff {text : List Char} {offset : Nat} :
    (charsFrom? offset text).isSome = true ↔ IsBoundary text offset := by
  rw [Option.isSome_iff_exists]
  constructor
  · rintro ⟨rest, hrest⟩
    obtain ⟨before, htext, hbefore⟩ := exists_of_charsFrom? hrest
    exact ⟨before, rest, htext, hbefore⟩
  · rintro ⟨before, rest, rfl, rfl⟩
    exact ⟨rest, charsFrom?_width before rest⟩

/-- What stands between two parts of a text is cut out at the bytes that they take. -/
theorem slice?_width (before taken rest : List Char) :
    slice? (width before) (width before + width taken) (before ++ (taken ++ rest)) =
      some taken := by
  rw [slice?, if_pos (Nat.le_add_right _ _), charsFrom?_width, Nat.add_sub_cancel_left,
    Option.bind_some, charsUpTo?_width]

theorem exists_of_charsUpTo? {bytes : Nat} {text taken : List Char}
    (htaken : charsUpTo? bytes text = some taken) :
    ∃ rest, text = taken ++ rest ∧ width taken = bytes := by
  fun_induction charsUpTo? bytes text generalizing taken with
  | case1 text =>
      cases htaken
      exact ⟨text, rfl, rfl⟩
  | case2 bytes => exact nomatch htaken
  | case3 bytes c more hfits ih =>
      obtain ⟨others, hothers, rfl⟩ := Option.map_eq_some_iff.mp htaken
      obtain ⟨rest, rfl, hwidth⟩ := ih hothers
      refine ⟨rest, rfl, ?_⟩
      rw [width, hwidth]
      omega
  | case4 bytes c more hfits => exact nomatch htaken

/-- A text can be cut between two boundaries in their order, and nowhere else. -/
theorem isSome_slice?_iff {first last : Nat} {text : List Char} :
    (slice? first last text).isSome = true ↔
      first ≤ last ∧ IsBoundary text first ∧ IsBoundary text last := by
  rw [slice?, Option.isSome_iff_exists]
  constructor
  · rintro ⟨taken, htaken⟩
    split_ifs at htaken with horder
    obtain ⟨behind, hbehind, hfilled⟩ := Option.bind_eq_some_iff.mp htaken
    obtain ⟨before, rfl, hbefore⟩ := exists_of_charsFrom? hbehind
    obtain ⟨rest, rfl, hwidth⟩ := exists_of_charsUpTo? hfilled
    refine ⟨horder, ⟨before, taken ++ rest, rfl, hbefore⟩,
      ⟨before ++ taken, rest, (List.append_assoc _ _ _).symm, ?_⟩⟩
    rw [width_append, hbefore, hwidth]
    omega
  · rintro ⟨horder, ⟨before, behind, rfl, rfl⟩, ⟨longer, rest, hsplit, rfl⟩⟩
    rw [if_pos horder, charsFrom?_width, Option.bind_some]
    rcases List.append_eq_append_iff.mp hsplit with ⟨taken, rfl, rfl⟩ | ⟨extra, rfl, rfl⟩
    · rw [width_append, Nat.add_sub_cancel_left]
      exact ⟨taken, charsUpTo?_width taken rest⟩
    · -- the longer one takes no more bytes, so nothing stands between the two
      rw [width_append] at horder ⊢
      rw [show width longer - (width longer + width extra) = 0 by omega]
      exact ⟨[], by cases behind <;> rfl⟩

/-! ## Stations -/

/-- Where the scanner is: the bytes before it, and how deep the arguments nest there. -/
structure Station where
  offset : Nat
  depth : Nat

/-- Where the scanner is and has been, the latest station first. -/
structure Track where
  now : Station
  past : List Station

namespace Track

def start : Track := ⟨⟨0, 0⟩, []⟩

def stations (track : Track) : List Station := track.now :: track.past

def moveTo (track : Track) (station : Station) : Track := ⟨station, track.stations⟩

def movedBy (track : Track) (bytes : Nat) : Track :=
  track.moveTo { track.now with offset := track.now.offset + bytes }

end Track

/-! ## The scanner -/

/-- Why a scan stops before its end. -/
inductive Stop where
  | violated (violation : Violation)
  /-- A text is cut within a character or behind its end, or the rounds of a loop or the nested
  calls are more than the text and the nesting allow. -/
  | strayed

/-- Part of a scan. -/
abbrev Scan := EStateM Stop Track

namespace Scan

variable (namespaces : NameSet) (text : List Char)

def offset : Scan Nat := return (← get).now.offset

def depth : Scan Nat := return (← get).now.depth

def cut (part? : Option (List Char)) : Scan (List Char) :=
  match part? with
  | some part => pure part
  | none => throw .strayed

/-- What is left of the text. -/
def rest : Scan (List Char) := do cut (charsFrom? (← offset) text)

/-- What stands between two offsets. -/
def slice (first last : Nat) : Scan (List Char) := cut (slice? first last text)

def peek : Scan (Option Char) := return (← rest text).head?

def bump (c : Char) : Scan Unit := modify fun track => track.movedBy c.utf8Size

/-- Goes past the next character. -/
def advance : Scan Unit := do
  match ← peek text with
  | none => return
  | some c => bump c

def violate {α : Type} (violation : Violation) : Scan α := throw (.violated violation)

def eat (expected : Char) : Scan Bool := do
  if (← peek text) = some expected then
    bump expected
    return true
  else return false

def expect (expected : Char) (violation : Nat → Violation) : Scan Unit := do
  if !(← eat text expected) then violate (violation (← offset))

/-- More rounds than any loop over the text can take. -/
def rounds : Nat := width text + 1

/-! ### Names -/

/-- Goes past the characters of a segment. -/
def skipSegment : (rounds : Nat) → Scan Unit
  | 0 => throw .strayed
  | rounds + 1 => do
    match ← peek text with
    | none => return
    | some c =>
      if isSegmentChar c then
        bump c
        skipSegment rounds

/-- Goes past a segment, if one starts here. -/
def segment : Scan Bool := do
  match ← peek text with
  | none => return false
  | some c =>
    if isSegmentLead c then
      bump c
      skipSegment text (rounds text)
      return true
    else return false

/-- Goes past separators with their segments, and tells where the last separator stands. -/
def moreSegments : (rounds : Nat) → (last : Option Nat) → Scan (Option Nat)
  | 0, _ => throw .strayed
  | rounds + 1, last => do
    match ← peek text with
    | none => return last
    | some c =>
      if QualifiedName.isSeparator c then
        let place ← offset
        bump c
        if ← segment text then moreSegments rounds (some place)
        else violate (.nameCharMissing (← offset))
      else return last

/-- What stands between an offset and the scanner, without what is before the last separator if
that is a namespace.  A separator takes one byte. -/
def shownFrom (first : Nat) : (last : Option Nat) → Scan (List Char)
  | none => do slice text first (← offset)
  | some separator => do
    if namespaces.contains (String.ofList (← slice text first separator)) then
      slice text (separator + 1) (← offset)
    else slice text first (← offset)

/-- A name as it is shown, empty if none starts here. -/
def name : Scan (List Char) := do
  let first ← offset
  if ← segment text then
    shownFrom namespaces text first (← moreSegments text (rounds text) none)
  else return []

/-! ### Array brackets -/

def skipBrackets : (rounds : Nat) → Scan Unit
  | 0 => throw .strayed
  | rounds + 1 => do
    if ← eat text '[' then
      expect text ']' .closingBracketMissing
      skipBrackets rounds

/-- Pairs of array brackets, as they stand. -/
def arrays : Scan (List Char) := do
  let first ← offset
  if (← peek text) = some '[' then
    skipBrackets text (rounds text)
    slice text first (← offset)
  else return []

/-! ### Template arguments -/

/-- The value of a decimal digit. -/
def digit? (c : Char) : Option Nat := if c.isDigit then some (c.toNat - '0'.toNat) else none

/-- A number that is cut at the greatest arity. -/
def saturated (number : Nat) : Nat := min maxArity number

/-- The further digits of an arity. -/
def moreDigits : (rounds : Nat) → (arity : Nat) → Scan Nat
  | 0, _ => throw .strayed
  | rounds + 1, arity => do
    match ← peek text with
    | none => return arity
    | some c =>
      match digit? c with
      | none => return arity
      | some digit =>
        advance text
        moreDigits rounds (saturated (saturated (arity * 10) + digit))

def arity : Scan Nat := do
  match ← peek text with
  | none => violate (.nonZeroDigitMissing (← offset))
  | some c =>
    match digit? c with
    | none | some 0 => violate (.nonZeroDigitMissing (← offset))
    | some (digit + 1) =>
      advance text
      moreDigits text (rounds text) (digit + 1)

def arguments (argument : Scan (List Char)) : (further : Nat) → Scan (List (List Char))
  | 0 => return [← argument]
  | further + 1 => do
    let shown ← argument
    expect text ',' .commaMissing
    return shown :: (← arguments argument further)

def template (argument : Scan (List Char)) : Scan (List Char) := do
  if ← eat text (Char.ofNat 0x60) then
    let announced ← arity text
    expect text '<' .lessThanMissing
    let shown ← arguments text argument (announced - 1)
    expect text '>' .greaterThanMissing
    return bracketed shown
  else return []

/-! ### Types -/

def typeWith (argument : Scan (List Char)) : Scan (List Char) := do
  return (← name namespaces text) ++ (← template text argument) ++ (← arrays text)

/-- Scans one level further in, and comes back however that ends. -/
def nested {α : Type} (scan : Scan α) : Scan α := fun track =>
  match scan (track.moveTo { track.now with depth := track.now.depth + 1 }) with
  | .ok value after => .ok value (after.moveTo { after.now with depth := after.now.depth - 1 })
  | .error stop after => .error stop (after.moveTo { after.now with depth := after.now.depth - 1 })

def argumentWith (type : Scan (List Char)) : Scan (List Char) := do
  let first ← offset
  if maxNesting ≤ (← depth) then violate (.tooDeep first)
  let shown ← nested type
  if shown.isEmpty then violate (.templateTypeMissing first)
  return shown

/-- A type, with at most so many calls one in the other. -/
def type : (calls : Nat) → Scan (List Char)
  | 0 => throw .strayed
  | calls + 1 => typeWith namespaces text (argumentWith (type calls))

/-- An argument, with at most so many calls in it. -/
def argument (calls : Nat) : Scan (List Char) := argumentWith (type namespaces text calls)

/-- The short form of the whole text. -/
def whole : Scan String := do
  let shown ← type namespaces text (maxNesting + 1)
  if (← offset) < width text then violate (.extraContents (String.ofList (← rest text)))
  return String.ofList shown

end Scan

end TypeName

end ActivityCatalogue
