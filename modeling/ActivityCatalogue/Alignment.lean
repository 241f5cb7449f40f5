/-!
# Alignment of two lists

Two lists in ascending order are gone through side by side.  At each place the
lesser head stands alone, and heads that compare equal stand together.  Classes,
their properties and the files of two directories are all compared this way.
-/

namespace ActivityCatalogue

/-- Ordinal order of names, as an outcome of comparing them. -/
def ordinal (first second : String) : Ordering :=
  if first < second then .lt else if first = second then .eq else .gt

/-- What two lists show at one place. -/
inductive Aligned (α β : Type) where
  | first (entry : α)
  | second (entry : β)
  | both (first : α) (second : β)
  deriving DecidableEq

namespace Aligned

variable {α β : Type}

/-- The entry of the first list, if it has one here. -/
def first? : Aligned α β → Option α
  | first entry => some entry
  | second _ => none
  | both entry _ => some entry

/-- The entry of the second list, if it has one here. -/
def second? : Aligned α β → Option β
  | first _ => none
  | second entry => some entry
  | both _ entry => some entry

end Aligned

/-- The places of two lists gone through side by side. -/
def align {α β : Type} (order : α → β → Ordering) : List α → List β → List (Aligned α β)
  | [], second => second.map .second
  | first, [] => first.map .first
  | l :: first, r :: second =>
    match order l r with
    | .lt => .first l :: align order first (r :: second)
    | .gt => .second r :: align order (l :: first) second
    | .eq => .both l r :: align order first second
termination_by first second => first.length + second.length

/-! ## Nothing is lost -/

theorem filterMap_first?_align {α β : Type} (order : α → β → Ordering) (first : List α)
    (second : List β) : (align order first second).filterMap Aligned.first? = first := by
  fun_induction align order first second with
  | case1 second => simp [List.filterMap_map, Function.comp_def, Aligned.first?]
  | case2 first _ => simp [List.filterMap_map, Function.comp_def, Aligned.first?]
  | case3 l first r second _ ih => simpa [Aligned.first?] using ih
  | case4 l first r second _ ih => exact (List.filterMap_cons_none rfl).trans ih
  | case5 l first r second _ ih => simpa [Aligned.first?] using ih

theorem filterMap_second?_align {α β : Type} (order : α → β → Ordering) (first : List α)
    (second : List β) : (align order first second).filterMap Aligned.second? = second := by
  fun_induction align order first second with
  | case1 second => simp [List.filterMap_map, Function.comp_def, Aligned.second?]
  | case2 first _ => simp [List.filterMap_map, Function.comp_def, Aligned.second?]
  | case3 l first r second _ ih => exact (List.filterMap_cons_none rfl).trans ih
  | case4 l first r second _ ih => simpa [Aligned.second?] using ih
  | case5 l first r second _ ih => simpa [Aligned.second?] using ih

end ActivityCatalogue
