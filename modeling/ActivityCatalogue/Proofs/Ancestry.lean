import ActivityCatalogue.Proofs.Registry

/-!
# Walks to a root

A walk goes from a name to the base class name of the class registered under it.
`nameAfter` says where it stands after some steps, without a bound on them; the
two bounded walks of a catalogue are both read off it (`reachesRoot_iff`,
`ancestorsFrom_eq_filterMap`).

A name determines the rest of its walk, so a walk that comes to one name twice
comes to it for ever.  A walk that ends at a root therefore never repeats a name:
from either place it would take the same number of steps to the root
(`EndsAtRoot.unique`).
-/

namespace ActivityCatalogue

namespace Catalogue

variable {catalogue : Catalogue} {name : String} {entry ancestor : ClassEntry} {steps hops : Nat}

/-- The class through which a walk goes on from a name, if it does not stop there. -/
def onward? (catalogue : Catalogue) (name : String) : Option ClassEntry :=
  if name.isEmpty || catalogue.isRoot name then none else catalogue.find? name

/-- The name at which a walk stands after some steps, none if it has stopped before. -/
def nameAfter (catalogue : Catalogue) : (steps : Nat) → (name : String) → Option String
  | 0, name => some name
  | steps + 1, name =>
    (catalogue.onward? name).bind fun ancestor => nameAfter catalogue steps ancestor.superSimpleName

/-- The class through which a walk takes the step after the given ones. -/
def visitedAfter (catalogue : Catalogue) (steps : Nat) (name : String) : Option ClassEntry :=
  (catalogue.nameAfter steps name).bind catalogue.onward?

/-- After these steps the walk stands at a root. -/
def EndsAtRoot (catalogue : Catalogue) (steps : Nat) (name : String) : Prop :=
  ∃ root, catalogue.nameAfter steps name = some root ∧ root.isEmpty = false ∧
    catalogue.isRoot root = true

/-! ## Single steps -/

theorem onward?_of_isRoot (hroot : catalogue.isRoot name = true) :
    catalogue.onward? name = none := by
  rw [onward?, hroot, Bool.or_true, if_pos rfl]

theorem find?_of_onward? (honward : catalogue.onward? name = some ancestor) :
    catalogue.find? name = some ancestor := by
  rw [onward?] at honward
  split_ifs at honward
  exact honward

theorem nameAfter_succ (honward : catalogue.onward? name = some ancestor) (steps : Nat) :
    catalogue.nameAfter (steps + 1) name = catalogue.nameAfter steps ancestor.superSimpleName := by
  rw [nameAfter, honward, Option.bind_some]

theorem nameAfter_succ_of_stop (hstop : catalogue.onward? name = none) (steps : Nat) :
    catalogue.nameAfter (steps + 1) name = none := by
  rw [nameAfter, hstop, Option.bind_none]

theorem nameAfter_add (first further : Nat) (name : String) :
    catalogue.nameAfter (first + further) name =
      (catalogue.nameAfter first name).bind (catalogue.nameAfter further) := by
  induction first generalizing name with
  | zero => rw [Nat.zero_add, nameAfter, Option.bind_some]
  | succ first ih =>
      rw [Nat.succ_add]
      cases honward : catalogue.onward? name with
      | none =>
          rw [nameAfter_succ_of_stop honward, nameAfter_succ_of_stop honward, Option.bind_none]
      | some ancestor => rw [nameAfter_succ honward, nameAfter_succ honward, ih]

theorem simpleName_of_visitedAfter (hvisited : catalogue.visitedAfter steps name = some ancestor) :
    catalogue.nameAfter steps name = some ancestor.simpleName := by
  obtain ⟨place, hplace, honward⟩ := Option.bind_eq_some_iff.mp hvisited
  rw [hplace, simpleName_of_find? (find?_of_onward? honward)]

theorem mem_entries_of_visitedAfter (hvisited : catalogue.visitedAfter steps name = some ancestor) :
    ancestor ∈ catalogue.entries := by
  obtain ⟨place, -, honward⟩ := Option.bind_eq_some_iff.mp hvisited
  exact mem_entries_of_find? (find?_of_onward? honward)

theorem nameAfter_succ_of_visitedAfter
    (hvisited : catalogue.visitedAfter steps name = some ancestor) :
    catalogue.nameAfter (steps + 1) name = some ancestor.superSimpleName := by
  obtain ⟨place, hplace, honward⟩ := Option.bind_eq_some_iff.mp hvisited
  rw [nameAfter_add, hplace, Option.bind_some, nameAfter_succ honward, nameAfter]

/-! ## Reaching a root -/

theorem endsAtRoot_zero_iff :
    catalogue.EndsAtRoot 0 name ↔ name.isEmpty = false ∧ catalogue.isRoot name = true := by
  constructor
  · rintro ⟨root, hstand, hroot⟩
    cases hstand
    exact hroot
  · exact fun hroot => ⟨name, rfl, hroot⟩

theorem endsAtRoot_succ_iff :
    catalogue.EndsAtRoot (steps + 1) name ↔
      ∃ ancestor, catalogue.onward? name = some ancestor ∧
        catalogue.EndsAtRoot steps ancestor.superSimpleName := by
  cases honward : catalogue.onward? name with
  | none =>
      refine ⟨?_, fun ⟨_, hsome, _⟩ => nomatch hsome⟩
      rintro ⟨root, hstand, -⟩
      rw [nameAfter_succ_of_stop honward] at hstand
      exact nomatch hstand
  | some ancestor =>
      rw [EndsAtRoot, nameAfter_succ honward]
      constructor
      · exact fun hends => ⟨ancestor, rfl, hends⟩
      · rintro ⟨_, hsome, hends⟩
        cases hsome
        exact hends

theorem reachesRoot_succ_iff :
    catalogue.reachesRoot (hops + 1) name = true ↔
      (name.isEmpty = false ∧ catalogue.isRoot name = true) ∨
        ∃ ancestor, catalogue.onward? name = some ancestor ∧
          catalogue.reachesRoot hops ancestor.superSimpleName = true := by
  rw [reachesRoot, onward?]
  cases name.isEmpty with
  | true => simp
  | false =>
      cases catalogue.isRoot name with
      | true => simp
      | false => cases catalogue.find? name <;> simp

/-- A walk of some hops meets a root exactly if fewer steps lead to one. -/
theorem reachesRoot_iff :
    catalogue.reachesRoot hops name = true ↔ ∃ steps < hops, catalogue.EndsAtRoot steps name := by
  induction hops generalizing name with
  | zero => exact ⟨nofun, fun ⟨_, hlt, _⟩ => absurd hlt (Nat.not_lt_zero _)⟩
  | succ hops ih =>
      rw [reachesRoot_succ_iff]
      constructor
      · rintro (hroot | ⟨ancestor, honward, hreaches⟩)
        · exact ⟨0, Nat.succ_pos hops, endsAtRoot_zero_iff.mpr hroot⟩
        · obtain ⟨steps, hlt, hends⟩ := ih.mp hreaches
          refine ⟨steps + 1, Nat.succ_lt_succ hlt, ?_⟩
          exact endsAtRoot_succ_iff.mpr ⟨ancestor, honward, hends⟩
      · rintro ⟨steps, hlt, hends⟩
        cases steps with
        | zero => exact Or.inl (endsAtRoot_zero_iff.mp hends)
        | succ steps =>
            obtain ⟨ancestor, honward, hends⟩ := endsAtRoot_succ_iff.mp hends
            exact Or.inr ⟨ancestor, honward, ih.mpr ⟨steps, Nat.lt_of_succ_lt_succ hlt, hends⟩⟩

/-! ## Visiting the ancestors -/

theorem ancestorsFrom_of_stop (hstop : catalogue.onward? name = none) :
    catalogue.ancestorsFrom hops name = [] := by
  rw [onward?] at hstop
  cases hops with
  | zero => rfl
  | succ hops =>
      rw [ancestorsFrom]
      split_ifs at hstop ⊢ with hends
      · rfl
      · rw [hstop]

theorem ancestorsFrom_succ (honward : catalogue.onward? name = some ancestor) :
    catalogue.ancestorsFrom (hops + 1) name =
      ancestor :: catalogue.ancestorsFrom hops ancestor.superSimpleName := by
  rw [onward?] at honward
  rw [ancestorsFrom]
  split_ifs at honward ⊢
  rw [honward]

/-- A bounded walk visits a class for each step that it can take. -/
theorem ancestorsFrom_eq_filterMap :
    catalogue.ancestorsFrom hops name =
      (List.range hops).filterMap fun steps => catalogue.visitedAfter steps name := by
  induction hops generalizing name with
  | zero => rfl
  | succ hops ih =>
      rw [List.range_succ_eq_map, List.filterMap_cons, List.filterMap_map]
      cases honward : catalogue.onward? name with
      | none =>
          have hnone : ∀ steps, catalogue.visitedAfter (steps + 1) name = none := by
            intro steps
            rw [visitedAfter, nameAfter_succ_of_stop honward, Option.bind_none]
          rw [ancestorsFrom_of_stop honward, visitedAfter, nameAfter, Option.bind_some, honward]
          exact (List.filterMap_eq_nil_iff.mpr fun steps _ => hnone steps).symm
      | some ancestor =>
          have hsucc : ∀ steps, catalogue.visitedAfter (steps + 1) name =
              catalogue.visitedAfter steps ancestor.superSimpleName := by
            intro steps
            rw [visitedAfter, nameAfter_succ honward, visitedAfter]
          rw [ancestorsFrom_succ honward, ih, visitedAfter, nameAfter, Option.bind_some, honward]
          exact congrArg _ (List.filterMap_congr fun steps _ => (hsucc steps).symm)

/-! ## A walk that ends at a root -/

namespace EndsAtRoot

/-- A walk takes steps exactly until it stands at the root. -/
theorem isSome_nameAfter_iff {total : Nat} (hends : catalogue.EndsAtRoot total name) :
    (catalogue.nameAfter steps name).isSome = true ↔ steps ≤ total := by
  induction total generalizing name steps with
  | zero =>
      obtain ⟨-, hroot⟩ := endsAtRoot_zero_iff.mp hends
      cases steps with
      | zero => exact ⟨fun _ => Nat.le_refl 0, fun _ => rfl⟩
      | succ steps =>
          rw [nameAfter_succ_of_stop (onward?_of_isRoot hroot)]
          exact ⟨nofun, fun hle => absurd hle (Nat.not_succ_le_zero _)⟩
  | succ total ih =>
      obtain ⟨ancestor, honward, hfurther⟩ := endsAtRoot_succ_iff.mp hends
      cases steps with
      | zero => exact ⟨fun _ => Nat.zero_le _, fun _ => rfl⟩
      | succ steps => rw [nameAfter_succ honward, ih hfurther, Nat.succ_le_succ_iff]

/-- From a name that a walk comes to, the walk goes on to the same root. -/
theorem drop {further : Nat} {place : String}
    (hends : catalogue.EndsAtRoot (steps + further) name)
    (hplace : catalogue.nameAfter steps name = some place) :
    catalogue.EndsAtRoot further place := by
  obtain ⟨root, hstand, hroot⟩ := hends
  rw [nameAfter_add, hplace, Option.bind_some] at hstand
  exact ⟨root, hstand, hroot⟩

/-- There is one number of steps to a root. -/
theorem unique {total other : Nat} (hends : catalogue.EndsAtRoot total name)
    (hother : catalogue.EndsAtRoot other name) : total = other := by
  have hlast : (catalogue.nameAfter total name).isSome = true := by
    obtain ⟨root, hstand, -⟩ := hends
    rw [hstand, Option.isSome_some]
  have hotherLast : (catalogue.nameAfter other name).isSome = true := by
    obtain ⟨root, hstand, -⟩ := hother
    rw [hstand, Option.isSome_some]
  exact Nat.le_antisymm (hother.isSome_nameAfter_iff.mp hlast)
    (hends.isSome_nameAfter_iff.mp hotherLast)

/-- A walk that ends at a root comes to no name twice. -/
theorem eq_of_nameAfter_eq {total first second : Nat} {place : String}
    (hends : catalogue.EndsAtRoot total name)
    (hfirst : catalogue.nameAfter first name = some place)
    (hsecond : catalogue.nameAfter second name = some place) : first = second := by
  have hfirstLe : first ≤ total := hends.isSome_nameAfter_iff.mp (by rw [hfirst]; rfl)
  have hsecondLe : second ≤ total := hends.isSome_nameAfter_iff.mp (by rw [hsecond]; rfl)
  -- the name is the same, so as many steps are left from it
  have hleft : catalogue.EndsAtRoot (total - first) place := by
    refine drop ?_ hfirst
    rwa [Nat.add_sub_cancel' hfirstLe]
  have hotherLeft : catalogue.EndsAtRoot (total - second) place := by
    refine drop ?_ hsecond
    rwa [Nat.add_sub_cancel' hsecondLe]
  have hsame := hleft.unique hotherLeft
  omega

/-- Hops beyond the number of steps to the root change nothing. -/
theorem ancestorsFrom_eq {total : Nat} (hends : catalogue.EndsAtRoot total name)
    (hhops : total ≤ hops) :
    catalogue.ancestorsFrom hops name = catalogue.ancestorsFrom total name := by
  induction total generalizing name hops with
  | zero =>
      obtain ⟨-, hroot⟩ := endsAtRoot_zero_iff.mp hends
      rw [ancestorsFrom_of_stop (onward?_of_isRoot hroot), ancestorsFrom]
  | succ total ih =>
      obtain ⟨ancestor, honward, hfurther⟩ := endsAtRoot_succ_iff.mp hends
      obtain ⟨hops, rfl⟩ := Nat.exists_eq_add_of_lt hhops
      rw [ancestorsFrom_succ honward, ancestorsFrom_succ honward,
        ih hfurther (Nat.le_add_right total hops)]

theorem length_ancestorsFrom {total : Nat} (hends : catalogue.EndsAtRoot total name) :
    (catalogue.ancestorsFrom total name).length = total := by
  induction total generalizing name with
  | zero => rfl
  | succ total ih =>
      obtain ⟨ancestor, honward, hfurther⟩ := endsAtRoot_succ_iff.mp hends
      rw [ancestorsFrom_succ honward, List.length_cons, ih hfurther]

/-- The ancestors on a walk to a root bear different names. -/
theorem nodup_ancestorsFrom {total : Nat} (hends : catalogue.EndsAtRoot total name) (hops : Nat) :
    ((catalogue.ancestorsFrom hops name).map ClassEntry.simpleName).Nodup := by
  rw [ancestorsFrom_eq_filterMap]
  refine List.pairwise_map.mpr (List.pairwise_filterMap.mpr (List.pairwise_lt_range.imp ?_))
  intro first second hlt earlier hearlier later hlater hname
  have hfirst := simpleName_of_visitedAfter hearlier
  have hsecond := simpleName_of_visitedAfter hlater
  exact hlt.ne (hends.eq_of_nameAfter_eq hfirst (hname ▸ hsecond))

end EndsAtRoot

/-! ## Activities -/

theorem isActivity_iff :
    catalogue.isActivity entry = true ↔
      ∃ steps < maxHops, catalogue.EndsAtRoot steps entry.superSimpleName :=
  reachesRoot_iff

/-- A class is none of the ancestors through which it comes to a root. -/
theorem EndsAtRoot.not_mem_ancestorsFrom {total : Nat} (hentry : entry ∈ catalogue.entries)
    (hends : catalogue.EndsAtRoot total entry.superSimpleName) (hops : Nat) :
    entry.simpleName ∉
      (catalogue.ancestorsFrom hops entry.superSimpleName).map ClassEntry.simpleName := by
  rw [ancestorsFrom_eq_filterMap]
  intro hmem
  obtain ⟨ancestor, hancestor, hname⟩ := List.mem_map.mp hmem
  obtain ⟨steps, -, hvisited⟩ := List.mem_filterMap.mp hancestor
  obtain rfl : ancestor = entry :=
    (ascendingBy_entries catalogue).eq_of_name_eq (mem_entries_of_visitedAfter hvisited) hentry
      hname
  -- the step through the class itself leads back to the start
  have hback := nameAfter_succ_of_visitedAfter hvisited
  exact absurd (hends.eq_of_nameAfter_eq hback rfl) (Nat.succ_ne_zero steps)

end Catalogue

end ActivityCatalogue
