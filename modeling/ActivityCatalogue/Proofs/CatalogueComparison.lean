import ActivityCatalogue.Comparison.Catalogues
import ActivityCatalogue.Comparison.Record
import ActivityCatalogue.Proofs.ByteOrder
import ActivityCatalogue.Proofs.Registry

/-!
# What a comparison of two catalogues tells

The walk passes over inaccessible classes on either side at its own pace and
drains what only one catalogue has left.  None of this shows in its events: the
places it reaches are the alignment of the accessible classes of both catalogues
(`filterMap_place?_walk`), and these ascend by simple name.

The main statement therefore needs no walk.  It goes through
the names of the accessible classes of both catalogues in ordinal order; under
each it says what each catalogue shows there.

The comparison counts differences apart from its events.  One law about such
counts (`foldl_add_eq_differenceCount`) serves properties and classes alike.
-/

namespace ActivityCatalogue

namespace Comparison

/-! ## The places that the walk reaches -/

/-- The place of a step, if it reaches one. -/
def Step.place? : Step → Option (Aligned ClassEntry ClassEntry)
  | skip _ => none
  | reach place => some place

theorem filter_cons_accessible {catalogue : Catalogue} {entry : ClassEntry}
    (haccessible : ¬ (!catalogue.isAccessible entry) = true) (rest : List ClassEntry) :
    (entry :: rest).filter catalogue.isAccessible = entry :: rest.filter catalogue.isAccessible :=
  List.filter_cons_of_pos (by simpa using haccessible)

/-- Passing over inaccessible classes one by one is the same as leaving them out
of both lists beforehand. -/
theorem filterMap_place?_walk (first second : Catalogue) (left right : List ClassEntry) :
    (walk first second left right).filterMap Step.place? =
      align classOrder (left.filter first.isAccessible) (right.filter second.isAccessible) := by
  fun_induction walk first second left right with
  | case1 right =>
      simp [align, List.filterMap_map, Function.comp_def, Step.place?]
  | case2 left _ =>
      simp [align_nil_right, List.filterMap_map, Function.comp_def, Step.place?]
  | case3 l left r right hl ih =>
      have hleft : (l :: left).filter first.isAccessible = left.filter first.isAccessible :=
        List.filter_cons_of_neg (by simpa using hl)
      rw [hleft]
      exact ih
  | case4 l left r right _ hr ih =>
      have hright : (r :: right).filter second.isAccessible = right.filter second.isAccessible :=
        List.filter_cons_of_neg (by simpa using hr)
      rw [hright]
      exact ih
  | case5 l left r right hl hr horder ih =>
      rw [filter_cons_accessible hr] at ih ⊢
      rw [filter_cons_accessible hl]
      simp only [align, horder]
      exact congrArg _ ih
  | case6 l left r right hl hr horder ih =>
      rw [filter_cons_accessible hl] at ih ⊢
      rw [filter_cons_accessible hr]
      simp only [align, horder]
      exact congrArg _ ih
  | case7 l left r right hl hr horder ih =>
      rw [filter_cons_accessible hl, filter_cons_accessible hr]
      simp only [align, horder]
      exact congrArg _ ih

theorem flatMap_events (sensitivity : Sensitivity) (first second : Catalogue)
    (walked : List Step) :
    walked.flatMap (Step.events sensitivity first second) =
      (walked.filterMap Step.place?).flatMap (classEvents sensitivity first second) := by
  induction walked with
  | nil => rfl
  | cons step rest ih =>
      cases step with
      | skip entry => exact ih
      | reach place => exact congrArg (classEvents sensitivity first second place ++ ·) ih

/-- The events are those of the accessible classes, aligned by simple name. -/
theorem events_eq_flatMap_align (sensitivity : Sensitivity) (first second : Catalogue) :
    events sensitivity first second =
      (align classOrder first.accessible second.accessible).flatMap
        (classEvents sensitivity first second) := by
  rw [events, flatMap_events, steps, filterMap_place?_walk]
  rfl

/-! ## Counting along with the events -/

/-- A count that grows by the differences of each place is the number of
differences among the events of all places. -/
theorem foldl_add_eq_differenceCount {α : Type} {told : α → List Event} {count : α → Nat}
    (hcount : ∀ place, count place = differenceCount (told place)) (places : List α)
    (total : Nat) :
    places.foldl (fun total place => total + count place) total =
      total + differenceCount (places.flatMap told) := by
  induction places generalizing total with
  | nil => rfl
  | cons place rest ih =>
      rw [List.foldl_cons, ih, hcount, List.flatMap_cons, differenceCount, differenceCount,
        differenceCount, List.countP_append, Nat.add_assoc]

theorem separates_eq_false_iff {sensitivity : Sensitivity} {l r : Property} :
    sensitivity.separates l r = false ↔
      (sensitivity ≠ .untyped → l.typeFullName = r.typeFullName) := by
  cases sensitivity with
  | untyped => simp [Sensitivity.separates, Sensitivity.comparesTypes]
  | typedLoose => simp [Sensitivity.separates, Sensitivity.comparesTypes]
  | typedStrict => simp [Sensitivity.separates, Sensitivity.comparesTypes]

theorem separates_comm (sensitivity : Sensitivity) (l r : Property) :
    sensitivity.separates l r = sensitivity.separates r l := by
  unfold Sensitivity.separates
  rw [bne_comm]

theorem propertyDifferencesAt_eq (sensitivity : Sensitivity) (place : Aligned Property Property) :
    propertyDifferencesAt sensitivity place =
      differenceCount (propertyEventsAt sensitivity place) := by
  cases place with
  | first property => rfl
  | second property => rfl
  | both first second =>
      simp only [propertyDifferencesAt, propertyEventsAt]
      split
      · rfl
      · rfl

theorem propertyDifferences_eq (sensitivity : Sensitivity) (first second : List Property) :
    propertyDifferences sensitivity first second =
      differenceCount (propertyEvents sensitivity first second) := by
  rw [propertyDifferences, foldl_add_eq_differenceCount (propertyDifferencesAt_eq sensitivity),
    Nat.zero_add, propertyEvents]

theorem step_differences_eq (sensitivity : Sensitivity) (first second : Catalogue) (step : Step) :
    step.differences sensitivity first second =
      differenceCount (step.events sensitivity first second) := by
  cases step with
  | skip entry => rfl
  | reach place =>
      cases place with
      | first entry => rfl
      | second entry => rfl
      | both l r => exact propertyDifferences_eq sensitivity _ _

theorem differences_eq (sensitivity : Sensitivity) (first second : Catalogue) :
    differences sensitivity first second =
      differenceCount (events sensitivity first second) := by
  rw [differences, foldl_add_eq_differenceCount (step_differences_eq sensitivity first second),
    Nat.zero_add, events]

/-- A record counts as a difference if its event does. -/
theorem countP_isDifference_records (events : List Event) :
    (records events).countP Record.isDifference = differenceCount events := by
  rw [records, List.countP_map, differenceCount]
  congr 1
  funext event
  cases event with
  | classOnlyIn side entry properties => rfl
  | propertyMatch property => rfl
  | propertyOnlyIn side property => rfl

/-! ## The events of a name -/

/-- The events of a name, told by the accessible classes that the catalogues have
under it. -/
def eventsOf (sensitivity : Sensitivity) (first second : Catalogue) :
    Option ClassEntry → Option ClassEntry → List Event
  | none, none => []
  | some l, none => [.classOnlyIn .first l (first.properties l)]
  | none, some r => [.classOnlyIn .second r (second.properties r)]
  | some l, some r => propertyEvents sensitivity (first.properties l) (second.properties r)

/-- The events that a comparison owes to one name. -/
def eventsNamed (sensitivity : Sensitivity) (first second : Catalogue) (name : String) :
    List Event :=
  eventsOf sensitivity first second (first.shown? name) (second.shown? name)

theorem classEvents_eq (sensitivity : Sensitivity) (first second : Catalogue)
    (place : Aligned ClassEntry ClassEntry) :
    classEvents sensitivity first second place =
      eventsOf sensitivity first second place.first? place.second? := by
  cases place with
  | first l => rfl
  | second r => rfl
  | both l r => rfl

/-- The simple name that a place is about. -/
def placeName : Aligned ClassEntry ClassEntry → String :=
  Aligned.key ClassEntry.simpleName ClassEntry.simpleName

theorem fits_place {first second : Catalogue} {place : Aligned ClassEntry ClassEntry}
    (hplace : place ∈ align classOrder first.accessible second.accessible) :
    place.Fits ClassEntry.simpleName ClassEntry.simpleName first.accessible second.accessible :=
  fits_of_mem_align first.ascendingBy_accessible second.ascendingBy_accessible hplace

theorem shown?_placeName_first {first second : Catalogue} {place : Aligned ClassEntry ClassEntry}
    (hplace : place ∈ align classOrder first.accessible second.accessible) :
    first.shown? (placeName place) = place.first? := by
  refine Option.ext fun entry => ?_
  rw [Catalogue.shown?_eq_some_iff,
    (fits_place hplace).first?_eq_some_iff first.ascendingBy_accessible]
  rfl

theorem shown?_placeName_second {first second : Catalogue} {place : Aligned ClassEntry ClassEntry}
    (hplace : place ∈ align classOrder first.accessible second.accessible) :
    second.shown? (placeName place) = place.second? := by
  refine Option.ext fun entry => ?_
  rw [Catalogue.shown?_eq_some_iff,
    (fits_place hplace).second?_eq_some_iff second.ascendingBy_accessible]
  rfl

/-- The simple names of the accessible classes of both catalogues, as the walk
meets them. -/
def shownNames (first second : Catalogue) : List String :=
  (align classOrder first.accessible second.accessible).map placeName

theorem pairwise_shownNames (first second : Catalogue) :
    (shownNames first second).Pairwise BytesBefore := by
  have hkeys := pairwise_key_align first.ascendingBy_accessible second.ascendingBy_accessible
  exact List.pairwise_map.mpr (hkeys.imp bytesBefore_of_lt)

theorem filterMap_shown?_first (first second : Catalogue) :
    (shownNames first second).filterMap first.shown? = first.accessible := by
  rw [shownNames, List.filterMap_map]
  exact (List.filterMap_congr fun place hplace => shown?_placeName_first hplace).trans
    (filterMap_first?_align classOrder first.accessible second.accessible)

theorem filterMap_shown?_second (first second : Catalogue) :
    (shownNames first second).filterMap second.shown? = second.accessible := by
  rw [shownNames, List.filterMap_map]
  exact (List.filterMap_congr fun place hplace => shown?_placeName_second hplace).trans
    (filterMap_second?_align classOrder first.accessible second.accessible)

theorem mem_shownNames_iff {first second : Catalogue} {name : String} :
    name ∈ shownNames first second ↔
      (first.shown? name).isSome ∨ (second.shown? name).isSome := by
  constructor
  · intro hname
    obtain ⟨place, hplace, rfl⟩ := List.mem_map.mp hname
    rw [shown?_placeName_first hplace, shown?_placeName_second hplace]
    cases place with
    | first l => exact Or.inl rfl
    | second r => exact Or.inr rfl
    | both l r => exact Or.inl rfl
  · -- the names recover every accessible class, so they hold its simple name
    rintro (hfirst | hsecond)
    · obtain ⟨entry, hentry⟩ := Option.isSome_iff_exists.mp hfirst
      obtain ⟨haccessible, rfl⟩ := Catalogue.shown?_eq_some_iff.mp hentry
      rw [← filterMap_shown?_first first second] at haccessible
      obtain ⟨name, hname, hshown⟩ := List.mem_filterMap.mp haccessible
      exact (Catalogue.shown?_eq_some_iff.mp hshown).2 ▸ hname
    · obtain ⟨entry, hentry⟩ := Option.isSome_iff_exists.mp hsecond
      obtain ⟨haccessible, rfl⟩ := Catalogue.shown?_eq_some_iff.mp hentry
      rw [← filterMap_shown?_second first second] at haccessible
      obtain ⟨name, hname, hshown⟩ := List.mem_filterMap.mp haccessible
      exact (Catalogue.shown?_eq_some_iff.mp hshown).2 ▸ hname

theorem events_eq_flatMap_shownNames (sensitivity : Sensitivity) (first second : Catalogue) :
    events sensitivity first second =
      (shownNames first second).flatMap (eventsNamed sensitivity first second) := by
  rw [events_eq_flatMap_align, shownNames, List.flatMap_map]
  refine List.flatMap_congr fun place hplace => ?_
  rw [classEvents_eq, eventsNamed, shown?_placeName_first hplace, shown?_placeName_second hplace]

/-- **A comparison, name by name.**  There is one list of names, strictly ascending
by their bytes, that holds the simple name of every accessible class of either
catalogue and no other name.  Looking the names up in a catalogue gives its
accessible classes, each once.  The events are those that the names deserve, in
this order, and the count is the number of events that are no match, for whoever
counts the events and for whoever counts their records. -/
theorem events_by_name (sensitivity : Sensitivity) (first second : Catalogue) :
    ∃ names : List String,
      names.Pairwise BytesBefore ∧
      (∀ name, name ∈ names ↔ (first.shown? name).isSome ∨ (second.shown? name).isSome) ∧
      names.filterMap first.shown? = first.accessible ∧
      names.filterMap second.shown? = second.accessible ∧
      events sensitivity first second = names.flatMap (eventsNamed sensitivity first second) ∧
      differences sensitivity first second =
        (events sensitivity first second).countP Event.isDifference ∧
      differences sensitivity first second =
        (records (events sensitivity first second)).countP Record.isDifference := by
  refine ⟨shownNames first second, pairwise_shownNames first second,
    fun name => mem_shownNames_iff, filterMap_shown?_first first second,
    filterMap_shown?_second first second, events_eq_flatMap_shownNames sensitivity first second,
    differences_eq sensitivity first second, ?_⟩
  rw [countP_isDifference_records]
  exact differences_eq sensitivity first second

end Comparison

end ActivityCatalogue
