import ActivityCatalogue.Proofs.ConsoleReport
import ActivityCatalogue.Proofs.Findings

/-!
# What sensitivity to types changes

Whether types are compared shows in one thing only: a property that both catalogues have
with different types is told by two events, or by a match.  So leaving the types out of a
comparison is the same as turning each of its findings of a retyped property into a match
(`events_untyped`), and each of them accounts for two differences.

Which properties these are can be told from the events, as neighbours that tell of one
property (`retyped_mem_findings_iff`), and from the catalogues (`retyped_mem_found_iff`).
-/

namespace ActivityCatalogue

namespace Comparison

/-! ## Retyped properties among events -/

theorem isOfOne_of_mem_preceded {event : Event} {later : List Finding}
    (hlater : ∀ finding ∈ later, finding.IsOfOne) {finding : Finding}
    (hfinding : finding ∈ preceded event later) : finding.IsOfOne := by
  unfold preceded at hfinding
  split at hfinding
  · next l r rest =>
      split at hfinding
      · next hsame =>
          rcases List.mem_cons.mp hfinding with rfl | hrest
          · exact hsame
          · exact hlater finding (List.mem_cons_of_mem _ hrest)
      · rcases List.mem_cons.mp hfinding with rfl | hrest
        · trivial
        · exact hlater finding hrest
  · rcases List.mem_cons.mp hfinding with rfl | hrest
    · trivial
    · exact hlater finding hrest

theorem isOfOne_of_mem_findings {events : List Event} {finding : Finding}
    (hfinding : finding ∈ findings events) : finding.IsOfOne := by
  induction events generalizing finding with
  | nil => exact absurd hfinding List.not_mem_nil
  | cons event rest ih => exact isOfOne_of_mem_preceded (fun _ => ih) hfinding

/-- What belongs together stays together, whatever comes before it. -/
theorem retyped_mem_preceded {event : Event} {later : List Finding} {l r : Property}
    (hlater : .retyped l r ∈ later) : .retyped l r ∈ preceded event later := by
  unfold preceded
  split
  · next l' r' rest =>
      have hrest : .retyped l r ∈ rest := by simpa using hlater
      split
      · exact List.mem_cons_of_mem _ hrest
      · exact List.mem_cons_of_mem _ hlater
  · exact List.mem_cons_of_mem _ hlater

/-- **Retyped properties** are read back from the events that stand side by side and tell
of one property, and from no other ones. -/
theorem retyped_mem_findings_iff {events : List Event} {l r : Property} :
    .retyped l r ∈ findings events ↔ l.subject = r.subject ∧
      ∃ before after, events = before ++ .propertyOnlyIn .first l ::
        .propertyOnlyIn .second r :: after := by
  constructor
  · intro hretyped
    refine ⟨isOfOne_of_mem_findings hretyped, ?_⟩
    obtain ⟨before, after, hsplit⟩ := List.append_of_mem hretyped
    refine ⟨before.flatMap Finding.events, after.flatMap Finding.events, ?_⟩
    rw [← flatMap_events_findings events, hsplit, List.flatMap_append, List.flatMap_cons]
    rfl
  · rintro ⟨hsame, before, after, rfl⟩
    induction before with
    | nil =>
        have hjoined : findings (.propertyOnlyIn .first l :: .propertyOnlyIn .second r :: after) =
            .retyped l r :: findings after := by
          rw [findings, findings, preceded_second]
          exact if_pos hsame
        rw [List.nil_append, hjoined]
        exact List.mem_cons_self
    | cons event before ih => exact retyped_mem_preceded ih

/-! ## Leaving types out -/

/-- What a finding comes to if types are not compared. -/
def Finding.untyped : Finding → Event
  | single event => event
  | retyped first _ => .propertyMatch first

/-- The event tells of a class as a whole. -/
def Event.isOfClass : Event → Bool
  | classOnlyIn .. => true
  | propertyMatch _ | propertyOnlyIn .. => false

variable {sensitivity : Sensitivity} {first second : Catalogue}

theorem propertyEventsAt_untyped (sensitivity : Sensitivity) (place : Aligned Property Property) :
    propertyEventsAt .untyped place = [(findingAt sensitivity place).untyped] := by
  cases place with
  | first l => rfl
  | second r => rfl
  | both l r =>
      have hmatch : propertyEventsAt .untyped (.both l r) = [.propertyMatch l] := rfl
      rw [hmatch, findingAt]
      split
      · rfl
      · rfl

theorem classEvents_untyped (sensitivity : Sensitivity) (first second : Catalogue)
    (place : Aligned ClassEntry ClassEntry) :
    classEvents .untyped first second place =
      (classFindings sensitivity first second place).map Finding.untyped := by
  cases place with
  | first entry => rfl
  | second entry => rfl
  | both l r =>
      rw [classEvents, classFindings, propertyEvents, List.map_map, List.map_eq_flatMap]
      exact List.flatMap_congr fun inner _ => propertyEventsAt_untyped sensitivity inner

/-- A comparison without types tells every finding by one event. -/
theorem events_untyped (sensitivity : Sensitivity) (first second : Catalogue) :
    events .untyped first second = (found sensitivity first second).map Finding.untyped := by
  rw [events_eq_flatMap_align, found, List.map_flatMap]
  exact List.flatMap_congr fun place _ => classEvents_untyped sensitivity first second place

/-- A retyped property makes two differences, and none if types are left out. -/
theorem differenceCount_finding_events (finding : Finding) :
    differenceCount finding.events =
      differenceCount [finding.untyped] + 2 * if finding.isRetyped then 1 else 0 := by
  cases finding with
  | single event => rfl
  | retyped l r => rfl

theorem differenceCount_flatMap_events (found : List Finding) :
    differenceCount (found.flatMap Finding.events) =
      differenceCount (found.map Finding.untyped) + 2 * found.countP Finding.isRetyped := by
  induction found with
  | nil => rfl
  | cons finding rest ih =>
      have hevents : differenceCount (finding.events ++ rest.flatMap Finding.events) =
          differenceCount finding.events + differenceCount (rest.flatMap Finding.events) :=
        List.countP_append
      have huntyped : differenceCount (finding.untyped :: rest.map Finding.untyped) =
          differenceCount [finding.untyped] + differenceCount (rest.map Finding.untyped) := by
        rw [← List.singleton_append]
        exact List.countP_append
      rw [List.flatMap_cons, hevents, differenceCount_finding_events, ih, List.map_cons, huntyped,
        List.countP_cons]
      omega

theorem filter_isOfClass_events (finding : Finding) :
    finding.events.filter Event.isOfClass = [finding.untyped].filter Event.isOfClass := by
  cases finding with
  | single event => rfl
  | retyped l r => rfl

theorem filter_isOfClass_flatMap_events (found : List Finding) :
    (found.flatMap Finding.events).filter Event.isOfClass =
      (found.map Finding.untyped).filter Event.isOfClass := by
  rw [List.filter_flatMap, List.map_eq_flatMap, List.filter_flatMap]
  simp only [filter_isOfClass_events]

/-- Both ways to compare types tell the same. -/
theorem events_typedStrict (first second : Catalogue) :
    events .typedStrict first second = events .typedLoose first second :=
  rfl

/-! ## Retyped properties in catalogues -/

/-- The catalogues show a property under one name, in classes of one name, with two types. -/
def Retyped (first second : Catalogue) (l r : Property) : Prop :=
  ∃ name former latter, first.shown? name = some former ∧ second.shown? name = some latter ∧
    l ∈ first.properties former ∧ r ∈ second.properties latter ∧
    l.displayName = r.displayName ∧ l.typeFullName ≠ r.typeFullName

theorem findingAt_eq_retyped_iff {place : Aligned Property Property} {l r : Property} :
    findingAt .typedLoose place = .retyped l r ↔
      place = .both l r ∧ l.typeFullName ≠ r.typeFullName := by
  cases place with
  | first other => simp [findingAt]
  | second other => simp [findingAt]
  | both left right =>
      have hseparates : Sensitivity.typedLoose.separates left right = true ↔
          left.typeFullName ≠ right.typeFullName := by
        simp [Sensitivity.separates, Sensitivity.comparesTypes]
      simp only [findingAt, hseparates]
      split
      · next hne =>
          simp only [Finding.retyped.injEq, Aligned.both.injEq]
          constructor
          · rintro ⟨rfl, rfl⟩
            exact ⟨⟨rfl, rfl⟩, hne⟩
          · exact And.left
      · next heq =>
          simp only [reduceCtorEq, Aligned.both.injEq, false_iff]
          rintro ⟨⟨rfl, rfl⟩, hne⟩
          exact heq hne

theorem retyped_mem_found_iff (hfirst : first.Reachable) (hsecond : second.Reachable)
    {l r : Property} :
    .retyped l r ∈ found .typedLoose first second ↔ Retyped first second l r := by
  have hplace : ∀ former latter, .both former latter ∈
      align classOrder first.accessible second.accessible ↔
        former ∈ first.accessible ∧ latter ∈ second.accessible ∧
          former.simpleName = latter.simpleName :=
    fun _ _ => both_mem_align_iff first.ascendingBy_accessible second.ascendingBy_accessible
  constructor
  · intro hretyped
    obtain ⟨place, hmem, hfinding⟩ := List.mem_flatMap.mp hretyped
    cases place with
    | first entry => simp [classFindings] at hfinding
    | second entry => simp [classFindings] at hfinding
    | both former latter =>
        obtain ⟨hformer, hlatter, hname⟩ := (hplace former latter).mp hmem
        obtain ⟨hleft, hright⟩ := listsClass_of_place hfirst hsecond hmem
        obtain ⟨inner, hinner, hgives⟩ := List.mem_map.mp hfinding
        obtain ⟨rfl, hne⟩ := findingAt_eq_retyped_iff.mp hgives
        obtain ⟨hl, hr, hsame⟩ := fits_of_mem_align hleft.ascending hright.ascending hinner
        exact ⟨former.simpleName, former, latter,
          Catalogue.shown?_eq_some_iff.mpr ⟨hformer, rfl⟩,
          Catalogue.shown?_eq_some_iff.mpr ⟨hlatter, hname.symm⟩, hl, hr, hsame, hne⟩
  · rintro ⟨name, former, latter, hformer, hlatter, hl, hr, hsame, hne⟩
    obtain ⟨hformer, hformerName⟩ := Catalogue.shown?_eq_some_iff.mp hformer
    obtain ⟨hlatter, hlatterName⟩ := Catalogue.shown?_eq_some_iff.mp hlatter
    have hmem := (hplace former latter).mpr
      ⟨hformer, hlatter, hformerName.trans hlatterName.symm⟩
    obtain ⟨hleft, hright⟩ := listsClass_of_place hfirst hsecond hmem
    have hinner : .both l r ∈
        align propertyOrder (first.properties former) (second.properties latter) :=
      (both_mem_align_iff hleft.ascending hright.ascending).mpr ⟨hl, hr, hsame⟩
    refine List.mem_flatMap.mpr ⟨.both former latter, hmem, ?_⟩
    exact List.mem_map.mpr ⟨.both l r, hinner, findingAt_eq_retyped_iff.mpr ⟨rfl, hne⟩⟩

/-- **Main statement.**  Both ways to compare types tell and count the same.  Read back,
the events are as many findings about different things; two of the events are one finding
exactly if they stand side by side and tell of one class and one name, and that is exactly
what the catalogues show with two types.  Without types, each of these pairs is replaced by
a match and nothing else changes, so what is told of whole classes stays, and the count is
less by two for each of them. -/
theorem events_by_sensitivity (first second : Catalogue) (hfirst : first.Reachable)
    (hsecond : second.Reachable) :
    let typed := events .typedLoose first second
    let untyped := events .untyped first second
    let read := findings typed
    events .typedStrict first second = typed ∧
    differences .typedStrict first second = differences .typedLoose first second ∧
    read.flatMap Finding.events = typed ∧
    untyped = read.map Finding.untyped ∧
    (read.map Finding.subject).Nodup ∧
    (∀ l r, .retyped l r ∈ read ↔ l.subject = r.subject ∧ ∃ before after,
      typed = before ++ .propertyOnlyIn .first l :: .propertyOnlyIn .second r :: after) ∧
    (∀ l r, .retyped l r ∈ read ↔ Retyped first second l r) ∧
    differences .typedLoose first second =
      differences .untyped first second + 2 * read.countP Finding.isRetyped ∧
    typed.filter Event.isOfClass = untyped.filter Event.isOfClass := by
  intro typed untyped read
  have hread : read = found .typedLoose first second := findings_events hfirst hsecond
  have htyped : read.flatMap Finding.events = typed := flatMap_events_findings typed
  have huntyped : untyped = read.map Finding.untyped := by
    rw [hread]
    exact events_untyped .typedLoose first second
  refine ⟨events_typedStrict first second, ?_, htyped, huntyped, ?_,
    fun l r => retyped_mem_findings_iff, fun l r => ?_, ?_, ?_⟩
  · rw [differences_eq, differences_eq, events_typedStrict]
  · rw [hread]
    exact nodup_subjects_found hfirst hsecond
  · rw [hread]
    exact retyped_mem_found_iff hfirst hsecond
  · calc differences .typedLoose first second
        = differenceCount (read.flatMap Finding.events) := by rw [differences_eq, htyped]
      _ = differenceCount untyped + 2 * read.countP Finding.isRetyped := by
          rw [differenceCount_flatMap_events, huntyped]
      _ = differences .untyped first second + 2 * read.countP Finding.isRetyped := by
          rw [differences_eq]
  · rw [← htyped, filter_isOfClass_flatMap_events, huntyped]

open Report (formerRelease latterRelease reachable_activities) in
/-- Between two releases a class goes, one comes and a property is retyped. -/
theorem sensitivity_of_releases :
    formerRelease.Reachable ∧ latterRelease.Reachable ∧
    let read := findings (events .typedLoose formerRelease latterRelease)
    read.map Finding.subject = [("Click", none), ("Drag", some "Speed"), ("Fade", none),
      ("Hover", some "Count")] ∧
    read.map Finding.isRetyped = [false, true, false, false] ∧
    differences .typedLoose formerRelease latterRelease = 4 ∧
    events .untyped formerRelease latterRelease = read.map Finding.untyped ∧
    differences .typedLoose formerRelease latterRelease =
      differences .untyped formerRelease latterRelease + 2 * read.countP Finding.isRetyped := by
  have hformer : formerRelease.Reachable := reachable_activities _
  have hlatter : latterRelease.Reachable := reachable_activities _
  obtain ⟨-, -, -, huntyped, -, -, -, hcount, -⟩ :=
    events_by_sensitivity formerRelease latterRelease hformer hlatter
  exact ⟨hformer, hlatter, by decide +kernel, by decide +kernel, by decide +kernel, huntyped, hcount⟩

end Comparison

end ActivityCatalogue
