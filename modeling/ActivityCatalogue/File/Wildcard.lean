/-!
# Wildcards

A pattern for names of files.  `*` stands for any run of characters, `?` for one
character, `[…]` for one of a set and `[!…]` for one outside a set; a set may hold
ranges such as `a-z`.  All other characters stand for themselves.  ASCII letters
are taken in either case.
-/

namespace ActivityCatalogue

namespace Wildcard

/-- What a set holds. -/
inductive Member where
  | single (letter : Char)
  | range (low high : Char)
  deriving DecidableEq

/-- What one part of a pattern stands for. -/
inductive Part where
  | letter (letter : Char)
  | anyLetter
  | anyRun
  | oneOf (members : List Member)
  | noneOf (members : List Member)
  deriving DecidableEq

/-- Why a text is no pattern. -/
inductive Violation where
  /-- Two stars stand together and are not the whole pattern. -/
  | starsTogether
  | setNotClosed
  deriving DecidableEq

def Violation.message : Violation → String
  | starsTogether => "Pattern syntax error: stars stand together"
  | setNotClosed => "Pattern syntax error: a set is not closed"

/-! ## Reading patterns -/

/-- The members that the inside of a set spells. -/
def members : List Char → List Member
  | low :: '-' :: high :: rest => .range low high :: members rest
  | letter :: rest => .single letter :: members rest
  | [] => []

/-- The inside of a set and what follows its end.  The first character belongs to
the inside, even if it is a closing bracket. -/
def insideOfSet? : List Char → Option (List Char × List Char)
  | [] => none
  | first :: rest =>
    match rest.dropWhile (· != ']') with
    | [] => none
    | _ :: further => some (first :: rest.takeWhile (· != ']'), further)

theorem length_of_insideOfSet? {text inside further : List Char}
    (hinside : insideOfSet? text = some (inside, further)) : further.length < text.length := by
  unfold insideOfSet? at hinside
  split at hinside
  · simp at hinside
  · next first rest =>
    split at hinside
    · simp at hinside
    · next closing after hdrop =>
      have hlength : (rest.dropWhile (· != ']')).length ≤ rest.length :=
        (List.dropWhile_sublist _).length_le
      simp only [Option.some.injEq, Prod.mk.injEq] at hinside
      simp only [hdrop, List.length_cons, hinside.2] at hlength ⊢
      omega

/-- The parts that a text spells, where a lone pair of stars has been ruled out. -/
def parts (text : List Char) : Except Violation (List Part) :=
  match text with
  | [] => .ok []
  | '?' :: rest => (parts rest).map (.anyLetter :: ·)
  | '*' :: '*' :: _ => .error .starsTogether
  | '*' :: rest => (parts rest).map (.anyRun :: ·)
  | '[' :: '!' :: rest =>
    match _hinside : insideOfSet? rest with
    | none => .error .setNotClosed
    | some (inside, further) => (parts further).map (.noneOf (members inside) :: ·)
  | '[' :: rest =>
    match _hinside : insideOfSet? rest with
    | none => .error .setNotClosed
    | some (inside, further) => (parts further).map (.oneOf (members inside) :: ·)
  | letter :: rest => (parts rest).map (.letter letter :: ·)
termination_by text.length
decreasing_by
  all_goals simp only [List.length_cons]
  any_goals omega
  all_goals
    have hshorter := length_of_insideOfSet? ‹insideOfSet? _ = some _›
    omega

/-- The pattern that a text spells.  A pair of stars that is the whole text means
the same as one star. -/
def read (text : String) : Except Violation (List Part) :=
  if text == "**" then .ok [.anyRun] else parts text.toList

/-! ## Matching -/

/-- Equality up to the case of ASCII letters. -/
def sameLetter (first second : Char) : Bool := first.toLower == second.toLower

namespace Member

/-- A range between two letters holds the letters between them in either case. -/
def covers (member : Member) (c : Char) : Bool :=
  match member with
  | single letter => sameLetter letter c
  | range low high =>
    (low ≤ c && c ≤ high) ||
      (low.isAlpha && high.isAlpha && low.toLower ≤ c.toLower && c.toLower ≤ high.toLower)

end Member

/-- Whether a part that stands for one character stands for `c`. -/
def Part.covers (part : Part) (c : Char) : Bool :=
  match part with
  | letter own => sameLetter own c
  | anyLetter | anyRun => true
  | oneOf members => members.any (·.covers c)
  | noneOf members => !members.any (·.covers c)

/-- Whether any entry of a row from here on is true, for each place in the row. -/
def anyFrom : List Bool → List Bool
  | [] => []
  | entry :: rest =>
    let later := anyFrom rest
    (entry || later.headD false) :: later

/-- For the name and each of its ends, down to the empty one, whether the pattern
matches it.  Parts are taken from the last one back, so that each meets each end
once. -/
def matchedEnds (pattern : List Part) (name : List Char) : List Bool :=
  match pattern with
  | [] => List.replicate name.length false ++ [true]
  | .anyRun :: further => anyFrom (matchedEnds further name)
  | part :: further =>
    List.zipWith (fun c later => part.covers c && later) name (matchedEnds further name).tail ++ [false]

/-- Whether a pattern matches a whole name. -/
def accepts (pattern : List Part) (name : List Char) : Bool :=
  (matchedEnds pattern name).headD false

/-! ### Matching, part by part -/

theorem tail_anyFrom (row : List Bool) : (anyFrom row).tail = anyFrom row.tail := by
  cases row <;> rfl

theorem length_anyFrom (row : List Bool) : (anyFrom row).length = row.length := by
  induction row with
  | nil => rfl
  | cons entry rest ih => exact congrArg (· + 1) ih

theorem matchedEnds_nil (name : List Char) :
    matchedEnds [] name = List.replicate name.length false ++ [true] := rfl

theorem matchedEnds_anyRun (further : List Part) (name : List Char) :
    matchedEnds (.anyRun :: further) name = anyFrom (matchedEnds further name) := rfl

theorem matchedEnds_cons {part : Part} (hpart : part ≠ .anyRun) (further : List Part)
    (name : List Char) :
    matchedEnds (part :: further) name =
      List.zipWith (fun c later => part.covers c && later) name (matchedEnds further name).tail ++
        [false] := by
  cases part with
  | anyRun => exact absurd rfl hpart
  | letter | anyLetter | oneOf | noneOf => rfl

theorem length_matchedEnds (pattern : List Part) (name : List Char) :
    (matchedEnds pattern name).length = name.length + 1 := by
  induction pattern with
  | nil => simp [matchedEnds_nil]
  | cons part further ih =>
    by_cases hpart : part = .anyRun
    · rw [hpart, matchedEnds_anyRun, length_anyFrom, ih]
    · simp [matchedEnds_cons hpart, ih]

theorem exists_matchedEnds_eq_cons (pattern : List Part) (name : List Char) :
    ∃ entry ends, matchedEnds pattern name = entry :: ends :=
  List.exists_cons_of_length_eq_add_one (length_matchedEnds pattern name)

/-- The ends of a name behind its first character are those of the rest. -/
theorem tail_matchedEnds (pattern : List Part) (c : Char) (rest : List Char) :
    (matchedEnds pattern (c :: rest)).tail = matchedEnds pattern rest := by
  induction pattern with
  | nil => rfl
  | cons part further ih =>
    by_cases hpart : part = .anyRun
    · rw [hpart, matchedEnds_anyRun, matchedEnds_anyRun, tail_anyFrom, ih]
    · obtain ⟨entry, ends, hends⟩ := exists_matchedEnds_eq_cons further rest
      rw [matchedEnds_cons hpart, matchedEnds_cons hpart, ih, hends]
      rfl

theorem accepts_nil (name : List Char) : accepts [] name = name.isEmpty := by
  cases name <;> rfl

theorem accepts_anyRun_nil (further : List Part) :
    accepts (.anyRun :: further) [] = accepts further [] := by
  obtain ⟨entry, hends⟩ := List.length_eq_one_iff.mp (length_matchedEnds further [])
  rw [accepts, accepts, matchedEnds_anyRun, hends]
  exact Bool.or_false entry

/-- A star takes nothing, or a character and then as before. -/
theorem accepts_anyRun_cons (further : List Part) (c : Char) (rest : List Char) :
    accepts (.anyRun :: further) (c :: rest) =
      (accepts further (c :: rest) || accepts (.anyRun :: further) rest) := by
  obtain ⟨entry, ends, hends⟩ := exists_matchedEnds_eq_cons further (c :: rest)
  have htail := tail_matchedEnds further c rest
  rw [hends, List.tail_cons] at htail
  rw [accepts, accepts, accepts, matchedEnds_anyRun, matchedEnds_anyRun, hends, ← htail]
  rfl

/-- Any other part takes one character. -/
theorem accepts_cons {part : Part} (hpart : part ≠ .anyRun) (further : List Part) (name : List Char) :
    accepts (part :: further) name =
      match name with
      | [] => false
      | c :: rest => part.covers c && accepts further rest := by
  rw [accepts, matchedEnds_cons hpart]
  cases name with
  | nil => rfl
  | cons c rest =>
    obtain ⟨entry, ends, hends⟩ := exists_matchedEnds_eq_cons further rest
    have hrest : accepts further rest = entry := by rw [accepts, hends, List.headD_cons]
    rw [tail_matchedEnds, hends]
    exact congrArg (part.covers c && ·) hrest.symm

end Wildcard

end ActivityCatalogue
