import ActivityCatalogue.Proofs.ConsoleReport
import ActivityCatalogue.Proofs.Findings

/-!
# Exchanging the catalogues of a comparison

The walk through two catalogues tries the first one before the second at every turn, and a
match shows the property of the first one.  Yet a comparison with the catalogues exchanged
finds the same in the same order (`found_exchanged`): two lists are aligned place by place
whichever of them comes first (`align_exchanged`), and what a place shows is only told
from the other side.

A match tells nothing of the other catalogue's property but its name.  There the other
catalogue has to be asked (`shownProperty?`), and it has that property
(`shownProperty?_of_place`).
-/

namespace ActivityCatalogue

/-- The property that a catalogue shows in a class, by the names of both. -/
def Catalogue.shownProperty? (catalogue : Catalogue) (className propertyName : String) :
    Option Property := do
  let entry ← catalogue.shown? className
  (catalogue.properties entry).find? fun property => property.displayName == propertyName

namespace Comparison

/-! ## The other side -/

def Side.other : Side → Side
  | first => second
  | second => first

/-- The event with the sides exchanged; `second` is the catalogue that becomes the first. -/
def Event.exchanged (second : Catalogue) : Event → Event
  | .classOnlyIn side entry properties => .classOnlyIn side.other entry properties
  | .propertyMatch property =>
    .propertyMatch
      ((second.shownProperty? property.resolvedFor property.displayName).getD property)
  | .propertyOnlyIn side property => .propertyOnlyIn side.other property

/-- The finding with the sides exchanged. -/
def Finding.exchanged (second : Catalogue) : Finding → Finding
  | single event => single (event.exchanged second)
  | retyped former latter => retyped latter former

variable {sensitivity : Sensitivity} {first second : Catalogue}

/-! ## Places -/

/-- Where two properties stand together, the second catalogue shows the other one under the
name of the first. -/
theorem shownProperty?_of_place (hfirst : first.Reachable) (hsecond : second.Reachable)
    {former latter : ClassEntry}
    (hplace : .both former latter ∈ align classOrder first.accessible second.accessible)
    {l r : Property}
    (hinner : .both l r ∈
      align propertyOrder (first.properties former) (second.properties latter)) :
    second.shownProperty? l.resolvedFor l.displayName = some r := by
  obtain ⟨-, hlatter, hclass⟩ := fits_place hplace
  obtain ⟨hleft, hright⟩ := listsClass_of_place hfirst hsecond hplace
  obtain ⟨hl, hr, hname⟩ := fits_of_mem_align hleft.ascending hright.ascending hinner
  have hshown : second.shown? l.resolvedFor = some latter :=
    Catalogue.shown?_eq_some_iff.mpr ⟨hlatter, hclass.symm.trans (hleft.resolvedFor l hl).symm⟩
  rw [Catalogue.shownProperty?, hshown, hname]
  exact hright.ascending.find?_name hr

theorem findingAt_exchanged (hfirst : first.Reachable) (hsecond : second.Reachable)
    {former latter : ClassEntry}
    (hplace : .both former latter ∈ align classOrder first.accessible second.accessible)
    {inner : Aligned Property Property}
    (hinner : inner ∈ align propertyOrder (first.properties former) (second.properties latter)) :
    findingAt sensitivity inner.exchanged = (findingAt sensitivity inner).exchanged second := by
  cases inner with
  | first l => rfl
  | second r => rfl
  | both l r =>
      have hcounterpart := shownProperty?_of_place hfirst hsecond hplace hinner
      simp only [Aligned.exchanged, findingAt, separates_comm sensitivity r l]
      split
      · rfl
      · rw [Finding.exchanged, Event.exchanged, hcounterpart, Option.getD_some]

theorem classFindings_exchanged (hfirst : first.Reachable) (hsecond : second.Reachable)
    {place : Aligned ClassEntry ClassEntry}
    (hplace : place ∈ align classOrder first.accessible second.accessible) :
    classFindings sensitivity second first place.exchanged =
      (classFindings sensitivity first second place).map (Finding.exchanged second) := by
  cases place with
  | first entry => rfl
  | second entry => rfl
  | both former latter =>
      have halign : align propertyOrder (second.properties latter) (first.properties former) =
          (align propertyOrder (first.properties former) (second.properties latter)).map
            Aligned.exchanged :=
        align_exchanged (fun _ _ => ordinal_swap _ _) _ _
      rw [Aligned.exchanged, classFindings, halign, List.map_map, classFindings, List.map_map]
      exact List.map_congr_left fun inner hinner =>
        findingAt_exchanged hfirst hsecond hplace hinner

/-- With the catalogues exchanged, the same is found in the same order. -/
theorem found_exchanged (hfirst : first.Reachable) (hsecond : second.Reachable) :
    found sensitivity second first =
      (found sensitivity first second).map (Finding.exchanged second) := by
  have halign : align classOrder second.accessible first.accessible =
      (align classOrder first.accessible second.accessible).map Aligned.exchanged :=
    align_exchanged (fun _ _ => ordinal_swap _ _) _ _
  rw [found, halign, List.flatMap_map, found, List.map_flatMap]
  exact List.flatMap_congr fun place hplace => classFindings_exchanged hfirst hsecond hplace

/-! ## What exchanging leaves as it is -/

/-- Whoever asks for the match that an event shows gets one from the second catalogue. -/
theorem exists_shownProperty? (hfirst : first.Reachable) (hsecond : second.Reachable)
    {l : Property} (hmatch : .propertyMatch l ∈ events sensitivity first second) :
    ∃ r, second.shownProperty? l.resolvedFor l.displayName = some r := by
  rw [events_eq_flatMap_align] at hmatch
  obtain ⟨place, hplace, hevent⟩ := List.mem_flatMap.mp hmatch
  cases place with
  | first entry => simp [classEvents] at hevent
  | second entry => simp [classEvents] at hevent
  | both former latter =>
      obtain ⟨inner, hinner, hevent⟩ := List.mem_flatMap.mp hevent
      cases inner with
      | first other => simp [propertyEventsAt] at hevent
      | second other => simp [propertyEventsAt] at hevent
      | both left r =>
          have hsame : left = l := by
            simp only [propertyEventsAt] at hevent
            split at hevent
            · simp at hevent
            · exact (Event.propertyMatch.inj (List.mem_singleton.mp hevent)).symm
          subst hsame
          exact ⟨r, shownProperty?_of_place hfirst hsecond hplace hinner⟩

theorem subject_of_shownProperty? (hsecond : second.Reachable) {className propertyName : String}
    {r : Property} (hshown : second.shownProperty? className propertyName = some r) :
    r.subject = (className, some propertyName) := by
  obtain ⟨entry, hentry, hfound⟩ := Option.bind_eq_some_iff.mp hshown
  obtain ⟨haccessible, rfl⟩ := Catalogue.shown?_eq_some_iff.mp hentry
  have hname : r.displayName = propertyName := by simpa using List.find?_some hfound
  have hresolved := hsecond.resolvedFor_eq (List.mem_filter.mp haccessible).1
    (List.mem_of_find?_eq_some hfound)
  exact Prod.ext hresolved (congrArg some hname)

/-- An exchanged finding is about the same class or property. -/
theorem subject_exchanged (hfirst : first.Reachable) (hsecond : second.Reachable)
    {finding : Finding} (hfinding : finding ∈ found sensitivity first second) :
    (finding.exchanged second).subject = finding.subject := by
  cases finding with
  | retyped l r => exact (isOfOne_of_mem_found hfirst hsecond hfinding).symm
  | single event =>
      cases event with
      | classOnlyIn side entry properties => rfl
      | propertyOnlyIn side property => rfl
      | propertyMatch l =>
          have hmatch : .propertyMatch l ∈ events sensitivity first second := by
            rw [← flatMap_events_found]
            exact List.mem_flatMap.mpr ⟨_, hfinding, List.mem_singleton.mpr rfl⟩
          obtain ⟨r, hshown⟩ := exists_shownProperty? hfirst hsecond hmatch
          have hsubject := subject_of_shownProperty? hsecond hshown
          rw [Finding.exchanged, Event.exchanged, hshown, Option.getD_some]
          exact hsubject

theorem differenceCount_exchanged (second : Catalogue) (found : List Finding) :
    differenceCount ((found.map (Finding.exchanged second)).flatMap Finding.events) =
      differenceCount (found.flatMap Finding.events) := by
  have heach : ∀ finding : Finding, differenceCount (finding.exchanged second).events =
      differenceCount finding.events := by
    intro finding
    cases finding with
    | retyped l r => rfl
    | single event =>
        cases event with
        | classOnlyIn side entry properties => rfl
        | propertyMatch property => rfl
        | propertyOnlyIn side property => rfl
  simp only [differenceCount] at heach ⊢
  simp only [List.flatMap_map, List.countP_flatMap, Function.comp_def, heach]

/-- **Main statement.**  A comparison with the catalogues exchanged counts as many
differences.  Read back, its findings are those of the comparison, one for one and about
the same classes and properties: with the sides exchanged, a match showing the other
catalogue's property, and a retyped property told by what is now the first catalogue before
what is now the second.  The other catalogue shows a property for each match. -/
theorem events_with_sides_exchanged (sensitivity : Sensitivity) (first second : Catalogue)
    (hfirst : first.Reachable) (hsecond : second.Reachable) :
    let there := events sensitivity first second
    let back := events sensitivity second first
    differences sensitivity second first = differences sensitivity first second ∧
    (findings there).flatMap Finding.events = there ∧
    back = ((findings there).map (Finding.exchanged second)).flatMap Finding.events ∧
    findings back = (findings there).map (Finding.exchanged second) ∧
    (findings back).map Finding.subject = (findings there).map Finding.subject ∧
    ∀ l, .propertyMatch l ∈ there →
      ∃ r, second.shownProperty? l.resolvedFor l.displayName = some r := by
  intro there back
  have hthere : findings there = found sensitivity first second := findings_events hfirst hsecond
  have hback : findings back = (findings there).map (Finding.exchanged second) := by
    rw [hthere, ← found_exchanged hfirst hsecond]
    exact findings_events hsecond hfirst
  have hevents : back =
      ((findings there).map (Finding.exchanged second)).flatMap Finding.events := by
    rw [← hback, flatMap_events_findings]
  refine ⟨?_, flatMap_events_findings there, hevents, hback, ?_,
    fun l => exists_shownProperty? hfirst hsecond⟩
  · calc differences sensitivity second first
        = differenceCount ((findings there).flatMap Finding.events) := by
          rw [differences_eq, ← differenceCount_exchanged second, ← hevents]
      _ = differences sensitivity first second := by
          rw [flatMap_events_findings, differences_eq]
  · rw [hback, hthere, List.map_map]
    exact List.map_congr_left fun finding hfinding => subject_exchanged hfirst hsecond hfinding

open Report (formerRelease latterRelease reachable_activities) in
/-- Seen from the later release, the class that went has come, and the class that came has
gone. -/
theorem releases_exchanged :
    formerRelease.Reachable ∧ latterRelease.Reachable ∧
    let there := findings (events .typedLoose formerRelease latterRelease)
    let back := findings (events .typedLoose latterRelease formerRelease)
    there.map Finding.subject = [("Click", none), ("Drag", some "Speed"), ("Fade", none),
      ("Hover", some "Count")] ∧
    back.map Finding.subject = there.map Finding.subject ∧
    back = there.map (Finding.exchanged latterRelease) ∧
    differences .typedLoose latterRelease formerRelease =
      differences .typedLoose formerRelease latterRelease := by
  have hformer : formerRelease.Reachable := reachable_activities _
  have hlatter : latterRelease.Reachable := reachable_activities _
  obtain ⟨hcount, -, -, hback, hsubjects, -⟩ :=
    events_with_sides_exchanged .typedLoose formerRelease latterRelease hformer hlatter
  exact ⟨hformer, hlatter, by decide +kernel, hsubjects, hback, hcount⟩

end Comparison

end ActivityCatalogue
