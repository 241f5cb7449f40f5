import ActivityCatalogue.Proofs.CatalogueComparison
import ActivityCatalogue.Proofs.History

/-!
# Catalogues that show the same

Two catalogues show the same if they have accessible classes of the same names, and
each of these has, in both, properties of the same names and (where types count) of the
same types.  That is what a comparison looks for: it counts no difference exactly if
the catalogues show the same (`differences_eq_zero_iff`).

A place of two aligned lists counts nothing only if both lists have an entry there, so
where nothing is counted no entry stands alone.  The converse needs the lists to ascend:
then a place tells all that either list has under its name.
-/

namespace ActivityCatalogue

namespace Comparison

variable {sensitivity : Sensitivity}

/-! ## Properties -/

/-- Two lists have properties of the same names, and if types count, properties of one
name have one type. -/
structure SameProperties (sensitivity : Sensitivity) (first second : List Property) : Prop where
  names : ∀ name, name ∈ first.map Property.displayName ↔ name ∈ second.map Property.displayName
  types : sensitivity ≠ .untyped → ∀ l ∈ first, ∀ r ∈ second, l.displayName = r.displayName →
    l.typeFullName = r.typeFullName

theorem propertyDifferencesAt_eq_zero_iff {place : Aligned Property Property} :
    propertyDifferencesAt sensitivity place = 0 ↔
      ∃ l r, place = .both l r ∧ sensitivity.separates l r = false := by
  cases place with
  | first l => simp [propertyDifferencesAt]
  | second r => simp [propertyDifferencesAt]
  | both l r => simp [propertyDifferencesAt]

theorem foldl_add_eq_zero_iff {α : Type} {count : α → Nat} {places : List α} {total : Nat} :
    places.foldl (fun total place => total + count place) total = 0 ↔
      total = 0 ∧ ∀ place ∈ places, count place = 0 := by
  induction places generalizing total with
  | nil => simp
  | cons place rest ih =>
      rw [List.foldl_cons, ih, List.forall_mem_cons, Nat.add_eq_zero_iff, and_assoc]

section

variable {first second : List Property}

theorem propertyDifferences_eq_zero_iff_forall :
    propertyDifferences sensitivity first second = 0 ↔
      ∀ place ∈ align propertyOrder first second,
        ∃ l r, place = .both l r ∧ sensitivity.separates l r = false := by
  simp only [propertyDifferences, foldl_add_eq_zero_iff, propertyDifferencesAt_eq_zero_iff,
    true_and]

/-- Lists with the same properties are aligned without an entry that stands alone. -/
theorem SameProperties.eq_both (hsame : SameProperties sensitivity first second)
    (hfirst : AscendingBy Property.displayName first)
    (hsecond : AscendingBy Property.displayName second) {place : Aligned Property Property}
    (hplace : place ∈ align propertyOrder first second) :
    ∃ l r, place = .both l r ∧ sensitivity.separates l r = false := by
  have hfits := fits_of_mem_align hfirst hsecond hplace
  cases place with
  | first l =>
      obtain ⟨r, hr, hname⟩ := List.mem_map.mp
        ((hsame.names l.displayName).mp (List.mem_map_of_mem hfits.1))
      exact absurd hname.symm (hfits.2 r hr)
  | second r =>
      obtain ⟨l, hl, hname⟩ := List.mem_map.mp
        ((hsame.names r.displayName).mpr (List.mem_map_of_mem hfits.1))
      exact absurd hname (hfits.2 l hl)
  | both l r =>
      refine ⟨l, r, rfl, separates_eq_false_iff.mpr fun htyped => ?_⟩
      exact hsame.types htyped l hfits.1 r hfits.2.1 hfits.2.2

/-- What is counted for the properties of a class is nothing exactly if they are the same. -/
theorem propertyDifferences_eq_zero_iff (hfirst : AscendingBy Property.displayName first)
    (hsecond : AscendingBy Property.displayName second) :
    propertyDifferences sensitivity first second = 0 ↔
      SameProperties sensitivity first second := by
  rw [propertyDifferences_eq_zero_iff_forall]
  constructor
  · intro hcoupled
    -- every property of either list has one of its name and type beside it
    have hleft : ∀ l ∈ first, ∃ r ∈ second, l.displayName = r.displayName ∧
        sensitivity.separates l r = false := by
      intro l hl
      rw [← filterMap_first?_align propertyOrder first second] at hl
      obtain ⟨place, hplace, hshown⟩ := List.mem_filterMap.mp hl
      obtain ⟨l', r, rfl, hseparates⟩ := hcoupled place hplace
      obtain rfl : l' = l := Option.some.inj hshown
      have hfits := fits_of_mem_align hfirst hsecond hplace
      exact ⟨r, hfits.2.1, hfits.2.2, hseparates⟩
    have hright : ∀ r ∈ second, ∃ l ∈ first, l.displayName = r.displayName := by
      intro r hr
      rw [← filterMap_second?_align propertyOrder first second] at hr
      obtain ⟨place, hplace, hshown⟩ := List.mem_filterMap.mp hr
      obtain ⟨l, r', rfl, -⟩ := hcoupled place hplace
      obtain rfl : r' = r := Option.some.inj hshown
      have hfits := fits_of_mem_align hfirst hsecond hplace
      exact ⟨l, hfits.1, hfits.2.2⟩
    refine ⟨fun name => ⟨fun hname => ?_, fun hname => ?_⟩, fun htyped l hl r hr hname => ?_⟩
    · obtain ⟨l, hl, rfl⟩ := List.mem_map.mp hname
      obtain ⟨r, hr, hsame, -⟩ := hleft l hl
      exact hsame ▸ List.mem_map_of_mem hr
    · obtain ⟨r, hr, rfl⟩ := List.mem_map.mp hname
      obtain ⟨l, hl, hsame⟩ := hright r hr
      exact hsame ▸ List.mem_map_of_mem hl
    · obtain ⟨other, hother, hsame, hseparates⟩ := hleft l hl
      obtain rfl : other = r := hsecond.eq_of_name_eq hother hr (hsame.symm.trans hname)
      exact separates_eq_false_iff.mp hseparates htyped
  · exact fun hsame place hplace => hsame.eq_both hfirst hsecond hplace

end

/-! ## Classes -/

/-- Two catalogues have accessible classes of the same names, and these have the same
properties. -/
structure ShowSame (sensitivity : Sensitivity) (first second : Catalogue) : Prop where
  classes : ∀ name, (first.shown? name).isSome ↔ (second.shown? name).isSome
  properties : ∀ name l r, first.shown? name = some l → second.shown? name = some r →
    SameProperties sensitivity (first.properties l) (second.properties r)

/-- Which types are shown plays no part, as long as they are compared. -/
theorem sameProperties_typedLoose_iff {first second : List Property} :
    SameProperties .typedLoose first second ↔ SameProperties .typedStrict first second := by
  constructor
  · intro hsame
    exact ⟨hsame.names, fun _ => hsame.types nofun⟩
  · intro hsame
    exact ⟨hsame.names, fun _ => hsame.types nofun⟩

theorem showSame_typedLoose_iff {first second : Catalogue} :
    ShowSame .typedLoose first second ↔ ShowSame .typedStrict first second := by
  constructor
  · intro hsame
    refine ⟨hsame.classes, fun name l r hl hr => ?_⟩
    exact sameProperties_typedLoose_iff.mp (hsame.properties name l r hl hr)
  · intro hsame
    refine ⟨hsame.classes, fun name l r hl hr => ?_⟩
    exact sameProperties_typedLoose_iff.mpr (hsame.properties name l r hl hr)

theorem differenceCount_flatMap_eq_zero_iff {α : Type} {told : α → List Event} {places : List α} :
    differenceCount (places.flatMap told) = 0 ↔
      ∀ place ∈ places, differenceCount (told place) = 0 := by
  unfold differenceCount
  rw [List.countP_flatMap, List.sum_eq_zero_iff, List.forall_mem_map]
  rfl

theorem differenceCount_eventsOf_eq_zero_iff {first second : Catalogue}
    {left right : Option ClassEntry} :
    differenceCount (eventsOf sensitivity first second left right) = 0 ↔
      (left.isSome ↔ right.isSome) ∧ ∀ l r, left = some l → right = some r →
        propertyDifferences sensitivity (first.properties l) (second.properties r) = 0 := by
  cases left with
  | none =>
      cases right with
      | none => simp [eventsOf, differenceCount]
      | some r => simp [eventsOf, differenceCount, Event.isDifference]
  | some l =>
      cases right with
      | none => simp [eventsOf, differenceCount, Event.isDifference]
      | some r => simp [eventsOf, propertyDifferences_eq]

/-- No difference is counted exactly if none is owed to any name. -/
theorem differences_eq_zero_iff_forall {first second : Catalogue} :
    differences sensitivity first second = 0 ↔
      ∀ name, differenceCount (eventsNamed sensitivity first second name) = 0 := by
  rw [differences_eq, events_eq_flatMap_shownNames, differenceCount_flatMap_eq_zero_iff]
  refine ⟨fun hnone name => ?_, fun hnone name _ => hnone name⟩
  by_cases hname : name ∈ shownNames first second
  · exact hnone name hname
  · simp only [mem_shownNames_iff, not_or, Option.not_isSome_iff_eq_none] at hname
    rw [eventsNamed, hname.1, hname.2]
    rfl

theorem ascendingBy_properties_of_shown? {catalogue : Catalogue} (hreach : catalogue.Reachable)
    {name : String} {entry : ClassEntry} (hshown : catalogue.shown? name = some entry) :
    AscendingBy Property.displayName (catalogue.properties entry) := by
  have haccessible : entry ∈ catalogue.accessible := (Catalogue.shown?_eq_some_iff.mp hshown).1
  exact hreach.ascendingBy_properties (List.mem_filter.mp haccessible).1

/-- **A comparison counts no difference exactly if both catalogues show the same.** -/
theorem differences_eq_zero_iff {first second : Catalogue} (hfirst : first.Reachable)
    (hsecond : second.Reachable) :
    differences sensitivity first second = 0 ↔ ShowSame sensitivity first second := by
  have hproperties : ∀ name l r, first.shown? name = some l → second.shown? name = some r →
      (propertyDifferences sensitivity (first.properties l) (second.properties r) = 0 ↔
        SameProperties sensitivity (first.properties l) (second.properties r)) := by
    intro name l r hl hr
    exact propertyDifferences_eq_zero_iff (ascendingBy_properties_of_shown? hfirst hl)
      (ascendingBy_properties_of_shown? hsecond hr)
  simp only [differences_eq_zero_iff_forall, eventsNamed, differenceCount_eventsOf_eq_zero_iff]
  constructor
  · intro hnone
    refine ⟨fun name => (hnone name).1, fun name l r hl hr => ?_⟩
    exact (hproperties name l r hl hr).mp ((hnone name).2 l r hl hr)
  · intro hsame name
    refine ⟨hsame.classes name, fun l r hl hr => ?_⟩
    exact (hproperties name l r hl hr).mpr (hsame.properties name l r hl hr)

end Comparison

end ActivityCatalogue
