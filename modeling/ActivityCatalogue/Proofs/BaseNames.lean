import ActivityCatalogue.Proofs.Ancestry

/-!
# The chain of base names

Above a class stand its base name, the base name of the class that is registered under
that one, and so on (`baseName?`).  The chain knows nothing of roots and of bounds; it
ends where a name is not registered, and in a cycle it goes on for ever.

A walk goes up this chain until it comes to a name that is empty, a root or not
registered, or until its hops are used up.  So one number decides about both walks of a
catalogue, that of the steps which they take (`StopsAfter`):

* the class is an activity if a root stands where the steps end, unless they end for
  want of hops (`StopsAfter.isActivity_iff`);
* the ancestors whose properties are merged are the classes at the names before
  (`StopsAfter.ancestors_eq`).
-/

namespace ActivityCatalogue

/-- A property of numbers has a first failure, unless it holds of all up to the bound. -/
theorem exists_firstFailure (holds : Nat → Prop) (bound : Nat) :
    ∃ steps ≤ bound, (∀ earlier < steps, holds earlier) ∧ (steps < bound → ¬ holds steps) := by
  induction bound with
  | zero => exact ⟨0, Nat.le_refl 0, by omega, by omega⟩
  | succ bound ih =>
      obtain ⟨steps, hle, hearlier, hfails⟩ := ih
      by_cases hholds : holds steps
      · -- there was no failure up to the smaller bound
        have hfull : steps = bound := by
          by_contra hne
          exact hfails (by omega) hholds
        subst hfull
        refine ⟨steps + 1, Nat.le_refl _, ?_, by omega⟩
        intro earlier hlt
        rcases Nat.lt_succ_iff_lt_or_eq.mp hlt with hbefore | rfl
        · exact hearlier earlier hbefore
        · exact hholds
      · exact ⟨steps, by omega, hearlier, fun _ => hholds⟩

namespace Catalogue

variable {catalogue : Catalogue} {entry ancestor : ClassEntry} {name : String}
  {step steps other : Nat}

/-! ## The chain -/

/-- The base name above a class after some steps, if all names before are registered. -/
def baseName? (catalogue : Catalogue) (entry : ClassEntry) : (step : Nat) → Option String
  | 0 => some entry.superSimpleName
  | step + 1 =>
    ((baseName? catalogue entry step).bind catalogue.find?).map ClassEntry.superSimpleName

/-- The class that is registered under the base name after some steps. -/
def baseClass? (catalogue : Catalogue) (entry : ClassEntry) (step : Nat) : Option ClassEntry :=
  (catalogue.baseName? entry step).bind catalogue.find?

/-- A walk goes on from a name that is not empty, no root, and registered. -/
def GoesOn (catalogue : Catalogue) (name : String) : Prop :=
  name ≠ "" ∧ catalogue.isRoot name = false ∧ (catalogue.find? name).isSome = true

/-- A walk goes on from the base name after these steps. -/
def Passes (catalogue : Catalogue) (entry : ClassEntry) (step : Nat) : Prop :=
  ∃ name, catalogue.baseName? entry step = some name ∧ catalogue.GoesOn name

/-- The base name after these steps is a root.  The empty name is never one. -/
def MeetsRoot (catalogue : Catalogue) (entry : ClassEntry) (step : Nat) : Prop :=
  ∃ root, catalogue.baseName? entry step = some root ∧ root ≠ "" ∧ catalogue.isRoot root = true

/-- A walk from the class takes just these steps: it goes on from each name before, and
then it stops, or has no hops left. -/
structure StopsAfter (catalogue : Catalogue) (entry : ClassEntry) (steps : Nat) : Prop where
  le_maxHops : steps ≤ maxHops
  passes : ∀ earlier < steps, catalogue.Passes entry earlier
  stops : steps < maxHops → ¬ catalogue.Passes entry steps

theorem baseName?_succ (catalogue : Catalogue) (entry : ClassEntry) (step : Nat) :
    catalogue.baseName? entry (step + 1) =
      (catalogue.baseClass? entry step).map ClassEntry.superSimpleName := rfl

theorem onward?_eq_some_iff :
    catalogue.onward? name = some ancestor ↔
      catalogue.GoesOn name ∧ catalogue.find? name = some ancestor := by
  rw [onward?, GoesOn, ← String.isEmpty_eq_false_iff]
  cases name.isEmpty with
  | true => simp
  | false =>
      cases catalogue.isRoot name with
      | true => simp
      | false =>
          constructor
          · intro hfound
            have hsome : catalogue.find? name = some ancestor := hfound
            exact ⟨⟨rfl, rfl, by rw [hsome]; rfl⟩, hsome⟩
          · rintro ⟨-, hfound⟩
            exact hfound

/-- A walk has gone on from every name before the one at which it stands. -/
theorem nameAfter_eq_some_iff :
    catalogue.nameAfter step entry.superSimpleName = some name ↔
      catalogue.baseName? entry step = some name ∧
        ∀ earlier < step, catalogue.Passes entry earlier := by
  induction step generalizing name with
  | zero =>
      constructor
      · exact fun hname => ⟨hname, fun earlier hlt => absurd hlt (Nat.not_lt_zero earlier)⟩
      · exact fun hname => hname.1
  | succ step ih =>
      rw [nameAfter_add, Option.bind_eq_some_iff, baseName?_succ, Option.map_eq_some_iff]
      constructor
      · rintro ⟨place, hplace, hnext⟩
        obtain ⟨hbase, hearlier⟩ := ih.mp hplace
        rw [nameAfter, Option.bind_eq_some_iff] at hnext
        obtain ⟨ancestor, honward, hsuper⟩ := hnext
        obtain ⟨hgoesOn, hfound⟩ := onward?_eq_some_iff.mp honward
        refine ⟨⟨ancestor, ?_, Option.some.inj hsuper⟩, ?_⟩
        · rw [baseClass?, hbase, Option.bind_some, hfound]
        · intro earlier hlt
          rcases Nat.lt_succ_iff_lt_or_eq.mp hlt with hbefore | rfl
          · exact hearlier earlier hbefore
          · exact ⟨place, hbase, hgoesOn⟩
      · rintro ⟨⟨ancestor, hclass, rfl⟩, hpasses⟩
        obtain ⟨place, hbase, hgoesOn⟩ := hpasses step (Nat.lt_succ_self step)
        rw [baseClass?, hbase, Option.bind_some] at hclass
        refine ⟨place, ih.mpr ⟨hbase, ?_⟩, ?_⟩
        · exact fun earlier hlt => hpasses earlier (Nat.lt_succ_of_lt hlt)
        · rw [nameAfter, onward?_eq_some_iff.mpr ⟨hgoesOn, hclass⟩]
          rfl

theorem endsAtRoot_iff :
    catalogue.EndsAtRoot step entry.superSimpleName ↔
      catalogue.MeetsRoot entry step ∧ ∀ earlier < step, catalogue.Passes entry earlier := by
  constructor
  · rintro ⟨root, hstand, hnonempty, hroot⟩
    obtain ⟨hbase, hearlier⟩ := nameAfter_eq_some_iff.mp hstand
    exact ⟨⟨root, hbase, String.isEmpty_eq_false_iff.mp hnonempty, hroot⟩, hearlier⟩
  · rintro ⟨⟨root, hbase, hnonempty, hroot⟩, hearlier⟩
    exact ⟨root, nameAfter_eq_some_iff.mpr ⟨hbase, hearlier⟩,
      String.isEmpty_eq_false_iff.mpr hnonempty, hroot⟩

theorem isActivity_iff_meetsRoot :
    catalogue.isActivity entry = true ↔
      ∃ step < maxHops, catalogue.MeetsRoot entry step ∧
        ∀ earlier < step, catalogue.Passes entry earlier := by
  simp only [isActivity_iff, endsAtRoot_iff]

/-- A walk visits a class at each step that it takes, the one of the base name. -/
theorem visitedAfter_eq_some_iff :
    catalogue.visitedAfter step entry.superSimpleName = some ancestor ↔
      (∀ earlier ≤ step, catalogue.Passes entry earlier) ∧
        catalogue.baseClass? entry step = some ancestor := by
  rw [visitedAfter, Option.bind_eq_some_iff]
  constructor
  · rintro ⟨place, hplace, honward⟩
    obtain ⟨hbase, hearlier⟩ := nameAfter_eq_some_iff.mp hplace
    obtain ⟨hgoesOn, hfound⟩ := onward?_eq_some_iff.mp honward
    refine ⟨?_, ?_⟩
    · intro earlier hle
      rcases Nat.lt_or_eq_of_le hle with hlt | rfl
      · exact hearlier earlier hlt
      · exact ⟨place, hbase, hgoesOn⟩
    · rw [baseClass?, hbase, Option.bind_some, hfound]
  · rintro ⟨hpasses, hclass⟩
    obtain ⟨place, hbase, hgoesOn⟩ := hpasses step (Nat.le_refl step)
    rw [baseClass?, hbase, Option.bind_some] at hclass
    exact ⟨place, nameAfter_eq_some_iff.mpr ⟨hbase, fun earlier hlt => hpasses earlier hlt.le⟩,
      onward?_eq_some_iff.mpr ⟨hgoesOn, hclass⟩⟩

/-! ## How many steps a walk takes -/

theorem exists_stopsAfter (catalogue : Catalogue) (entry : ClassEntry) :
    ∃ steps, catalogue.StopsAfter entry steps := by
  obtain ⟨steps, hle, hpasses, hstops⟩ :=
    exists_firstFailure (catalogue.Passes entry) maxHops
  exact ⟨steps, hle, hpasses, hstops⟩

theorem not_passes_of_meetsRoot (hroot : catalogue.MeetsRoot entry step) :
    ¬ catalogue.Passes entry step := by
  rintro ⟨name, hbase, -, hnoRoot, -⟩
  obtain ⟨root, hsame, -, hisRoot⟩ := hroot
  rw [hbase] at hsame
  cases hsame
  rw [hisRoot] at hnoRoot
  exact nomatch hnoRoot

namespace StopsAfter

theorem unique (hsteps : catalogue.StopsAfter entry steps)
    (hother : catalogue.StopsAfter entry other) : other = steps := by
  have hle := hsteps.le_maxHops
  have hotherLe := hother.le_maxHops
  -- the walk that stops first would not have gone on in the other one
  rcases Nat.lt_trichotomy other steps with hlt | heq | hgt
  · exact absurd (hsteps.passes other hlt) (hother.stops (by omega))
  · exact heq
  · exact absurd (hother.passes steps hgt) (hsteps.stops (by omega))

/-- The class is an activity if its walk stops at a root before its hops are used up. -/
theorem isActivity_iff (hsteps : catalogue.StopsAfter entry steps) :
    catalogue.isActivity entry = true ↔ steps < maxHops ∧ catalogue.MeetsRoot entry steps := by
  rw [isActivity_iff_meetsRoot]
  constructor
  · rintro ⟨last, hlast, hroot, hpasses⟩
    have hstops : catalogue.StopsAfter entry last :=
      ⟨hlast.le, hpasses, fun _ => not_passes_of_meetsRoot hroot⟩
    obtain rfl : last = steps := hsteps.unique hstops
    exact ⟨hlast, hroot⟩
  · rintro ⟨hlt, hroot⟩
    exact ⟨steps, hlt, hroot, hsteps.passes⟩

/-- The ancestors are the classes at the base names from which the walk goes on. -/
theorem ancestors_eq (hsteps : catalogue.StopsAfter entry steps) :
    catalogue.ancestors entry =
      (List.range steps).filterMap (catalogue.baseClass? entry) := by
  obtain ⟨further, hhops⟩ := Nat.exists_eq_add_of_le hsteps.le_maxHops
  rw [ancestors, ancestorsFrom_eq_filterMap, hhops, List.range_add, List.filterMap_append]
  have hbefore : ∀ step ∈ List.range steps,
      catalogue.visitedAfter step entry.superSimpleName = catalogue.baseClass? entry step := by
    intro step hstep
    refine Option.ext fun ancestor => ?_
    rw [visitedAfter_eq_some_iff]
    refine and_iff_right fun earlier hle => hsteps.passes earlier ?_
    exact Nat.lt_of_le_of_lt hle (List.mem_range.mp hstep)
  have hbehind : ((List.range further).map (steps + ·)).filterMap (fun step =>
      catalogue.visitedAfter step entry.superSimpleName) = [] := by
    rw [List.filterMap_eq_nil_iff]
    intro step hstep
    obtain ⟨hop, hhop, rfl⟩ := List.mem_map.mp hstep
    have hhop : hop < further := List.mem_range.mp hhop
    rw [Option.eq_none_iff_forall_ne_some]
    intro ancestor hvisited
    have hpasses := (visitedAfter_eq_some_iff.mp hvisited).1 steps (Nat.le_add_right steps hop)
    exact hsteps.stops (by omega) hpasses
  rw [List.filterMap_congr hbefore, hbehind, List.append_nil]

/-- There is a class at each of these base names. -/
theorem map_some_ancestors (hsteps : catalogue.StopsAfter entry steps) :
    (catalogue.ancestors entry).map some =
      (List.range steps).map (catalogue.baseClass? entry) := by
  rw [hsteps.ancestors_eq, List.map_filterMap, ← List.filterMap_eq_map]
  refine List.filterMap_congr fun step hstep => ?_
  obtain ⟨name, hbase, -, -, hfound⟩ := hsteps.passes step (List.mem_range.mp hstep)
  obtain ⟨ancestor, hancestor⟩ := Option.isSome_iff_exists.mp hfound
  have hclass : catalogue.baseClass? entry step = some ancestor := by
    rw [baseClass?, hbase, Option.bind_some, hancestor]
  rw [Function.comp_apply, hclass]
  rfl

end StopsAfter

/-! ## What keeps a class from being an activity -/

/-- A name at which walks stop, without a root up to there, keeps the class from one. -/
theorem not_isActivity_of_stop (hbase : catalogue.baseName? entry step = some name)
    (hnoRoot : ∀ earlier ≤ step, ¬ catalogue.MeetsRoot entry earlier)
    (hstop : name = "" ∨ catalogue.find? name = none) : catalogue.isActivity entry = false := by
  rw [Bool.eq_false_iff]
  intro hactivity
  obtain ⟨last, -, hroot, hpasses⟩ := isActivity_iff_meetsRoot.mp hactivity
  by_cases hle : last ≤ step
  · exact hnoRoot last hle hroot
  · obtain ⟨place, hplace, hnonempty, -, hfound⟩ := hpasses step (by omega)
    rw [hbase] at hplace
    cases hplace
    rcases hstop with hempty | hnone
    · exact hnonempty hempty
    · rw [hnone] at hfound
      exact nomatch hfound

/-- A name that comes twice, without a root before, keeps the class from one. -/
theorem not_isActivity_of_cycle {first second : Nat} (hlt : first < second)
    (hfirst : catalogue.baseName? entry first = some name)
    (hsecond : catalogue.baseName? entry second = some name)
    (hnoRoot : ∀ earlier < second, ¬ catalogue.MeetsRoot entry earlier) :
    catalogue.isActivity entry = false := by
  rw [Bool.eq_false_iff]
  intro hactivity
  obtain ⟨last, -, hroot, hpasses⟩ := isActivity_iff_meetsRoot.mp hactivity
  have hends : catalogue.EndsAtRoot last entry.superSimpleName :=
    endsAtRoot_iff.mpr ⟨hroot, hpasses⟩
  have hle : second ≤ last := by
    by_contra hbefore
    exact hnoRoot last (by omega) hroot
  -- a walk to a root would come to this name once only
  have hcomes : ∀ step ≤ second, catalogue.baseName? entry step = some name →
      catalogue.nameAfter step entry.superSimpleName = some name := by
    intro step hstep hbase
    exact nameAfter_eq_some_iff.mpr ⟨hbase, fun earlier hearlier => hpasses earlier (by omega)⟩
  have hsame : first = second :=
    hends.eq_of_nameAfter_eq (hcomes first hlt.le hfirst) (hcomes second le_rfl hsecond)
  omega

/-- The roots from settings are the trimmed names that are not empty. -/
theorem isRoot_iff_of_settings (settings : Settings) (hroots : catalogue.roots = settings.roots) :
    catalogue.isRoot name = true ↔
      name ∈ settings.activityClasses.map Text.trim ∧ name ≠ "" := by
  rw [isRoot, hroots, Settings.roots, trimmedNames, NameSet.contains_ofList, List.mem_filter,
    Bool.not_eq_true', String.isEmpty_eq_false_iff]

theorem ne_empty_of_isRoot (settings : Settings) (hroots : catalogue.roots = settings.roots)
    (hroot : catalogue.isRoot name = true) : name ≠ "" :=
  ((isRoot_iff_of_settings settings hroots).mp hroot).2

/-- **Main statement.**  A class is an activity exactly if a root stands in the chain of
its base names within the hops, and every name before it is one from which a walk goes
on.  So it is none if the chain comes to an empty or unregistered name or runs in a
cycle without meeting a root, or meets its first root too late.

Both walks of a catalogue take one number of steps.  Whether the class is an activity is
decided by the name at which they stop, and the properties that it inherits come from
exactly the classes at the names before. -/
theorem walks_agree (catalogue : Catalogue) (entry : ClassEntry) :
    (catalogue.isActivity entry = true ↔
      ∃ step < maxHops, catalogue.MeetsRoot entry step ∧
        ∀ earlier < step, catalogue.Passes entry earlier) ∧
    (∀ settings : Settings, catalogue.roots = settings.roots → ∀ step,
      (catalogue.MeetsRoot entry step ↔
        ∃ root, catalogue.baseName? entry step = some root ∧ catalogue.isRoot root = true)) ∧
    (∀ step name, catalogue.baseName? entry step = some name →
      (∀ earlier ≤ step, ¬ catalogue.MeetsRoot entry earlier) →
        (name = "" ∨ catalogue.find? name = none) → catalogue.isActivity entry = false) ∧
    (∀ first second name, first < second → catalogue.baseName? entry first = some name →
      catalogue.baseName? entry second = some name →
        (∀ earlier < second, ¬ catalogue.MeetsRoot entry earlier) →
          catalogue.isActivity entry = false) ∧
    ((∀ step < maxHops, ¬ catalogue.MeetsRoot entry step) → catalogue.isActivity entry = false) ∧
    ∃ steps, (∀ other, catalogue.StopsAfter entry other ↔ other = steps) ∧
      (catalogue.isActivity entry = true ↔ steps < maxHops ∧ catalogue.MeetsRoot entry steps) ∧
      ∃ bases : List ClassEntry, bases.map some =
          (List.range steps).map (catalogue.baseClass? entry) ∧
        catalogue.resolve entry = (propertyMap entry bases).values := by
  obtain ⟨steps, hsteps⟩ := exists_stopsAfter catalogue entry
  refine ⟨isActivity_iff_meetsRoot, fun settings hroots step => ?_,
    fun step name => not_isActivity_of_stop, fun first second name => not_isActivity_of_cycle,
    fun hlate => ?_, steps, fun other => ?_, hsteps.isActivity_iff, catalogue.ancestors entry,
    hsteps.map_some_ancestors, rfl⟩
  · constructor
    · rintro ⟨root, hbase, -, hroot⟩
      exact ⟨root, hbase, hroot⟩
    · rintro ⟨root, hbase, hroot⟩
      exact ⟨root, hbase, ne_empty_of_isRoot settings hroots hroot, hroot⟩
  · rw [Bool.eq_false_iff]
    intro hactivity
    obtain ⟨step, hstep, hroot, -⟩ := isActivity_iff_meetsRoot.mp hactivity
    exact hlate step hstep hroot
  · constructor
    · exact hsteps.unique
    · rintro rfl
      exact hsteps

end Catalogue

end ActivityCatalogue
