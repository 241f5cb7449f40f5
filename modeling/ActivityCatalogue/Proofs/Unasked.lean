import ActivityCatalogue.Listing
import ActivityCatalogue.Proofs.CatalogueComparison
import ActivityCatalogue.Proofs.Filling
import ActivityCatalogue.Proofs.History

/-!
# What does not depend on settled properties

A catalogue remembers what its classes have settled on.  Apart from that memory it is the
catalogue of which nothing was ever asked (`unasked`): filling acts on the two alike, asking
makes no difference to the latter, and walks, activities and resolution are the same in
both.  So a catalogue whose classes have settled on nothing but what resolution gives now
(`IsFresh`) answers every question as if it had never been asked before.
-/

namespace ActivityCatalogue

/-- The class before its properties were asked for. -/
def ClassEntry.unasked (entry : ClassEntry) : ClassEntry := { entry with settled := none }

namespace Catalogue

variable {catalogue : Catalogue} {entry : ClassEntry} {name : String}

/-- The catalogue as it would be if no properties had been asked for. -/
def unasked (catalogue : Catalogue) : Catalogue :=
  { catalogue with
    classes := catalogue.classes.mapValues fun _ entry => entry.unasked
    named := by
      intro registered hregistered
      obtain ⟨old, hold, rfl⟩ := List.mem_map.mp hregistered
      exact catalogue.named old hold }

theorem find?_unasked (catalogue : Catalogue) (name : String) :
    catalogue.unasked.find? name = (catalogue.find? name).map ClassEntry.unasked :=
  NameMap.find?_mapValues catalogue.classes name _

theorem entries_unasked (catalogue : Catalogue) :
    catalogue.unasked.entries = catalogue.entries.map ClassEntry.unasked := by
  show (catalogue.classes.entries.map fun registered =>
    (registered.1, registered.2.unasked)).map Prod.snd = _
  rw [List.map_map, entries, NameMap.values, List.map_map]
  rfl

/-! ## Filling and asking -/

/-- A catalogue is its classes, its packages and its roots. -/
theorem eq_of_parts {other : Catalogue} (hclasses : catalogue.classes = other.classes)
    (hpackages : catalogue.packages = other.packages) (hroots : catalogue.roots = other.roots) :
    catalogue = other := by
  obtain ⟨classes, packages, roots, named⟩ := catalogue
  obtain ⟨otherClasses, otherPackages, otherRoots, otherNamed⟩ := other
  obtain rfl : classes = otherClasses := hclasses
  obtain rfl : packages = otherPackages := hpackages
  obtain rfl : roots = otherRoots := hroots
  rfl

theorem unasked_settle (catalogue : Catalogue) (asked : ClassEntry → Bool) :
    (catalogue.settle asked).unasked = catalogue.unasked := by
  refine eq_of_parts (NameMap.eq_of_find?_eq fun name => ?_) rfl rfl
  have hsettled : (catalogue.settle asked).find? name =
      (catalogue.find? name).map (catalogue.settling asked) :=
    NameMap.find?_mapValues catalogue.classes name _
  have hsame : ClassEntry.unasked ∘ catalogue.settling asked = ClassEntry.unasked := by
    funext entry
    rw [Function.comp_apply, settling]
    split
    · rfl
    · rfl
  show (catalogue.settle asked).unasked.find? name = catalogue.unasked.find? name
  rw [find?_unasked, find?_unasked, hsettled, Option.map_map, hsame]

theorem registration_unasked (catalogue : Catalogue) (declaration : ClassDeclaration) :
    catalogue.unasked.registration declaration = catalogue.registration declaration := by
  rw [registration, registration, find?_unasked]
  cases catalogue.find? (simpleName declaration.fullName) with
  | none => rfl
  | some existing => rfl

theorem unasked_take (catalogue : Catalogue) (offer : Offer) :
    (catalogue.take offer).unasked = catalogue.unasked.take offer := by
  have hfind : ∀ name, (catalogue.take offer).unasked.find? name =
      (catalogue.unasked.take offer).find? name := by
    intro name
    rw [find?_unasked, find?_take, find?_take, find?_unasked, Option.map_or]
    congr 1
    split
    · rfl
    · rfl
  have hparts : (catalogue.take offer).unasked.packages = (catalogue.unasked.take offer).packages ∧
      (catalogue.take offer).unasked.roots = (catalogue.unasked.take offer).roots := by
    unfold take register
    rw [registration_unasked]
    cases catalogue.registration offer.declaration with
    | inserted => exact ⟨rfl, rfl⟩
    | duplicate firstPackage => exact ⟨rfl, rfl⟩
  exact eq_of_parts (NameMap.eq_of_find?_eq hfind) hparts.1 hparts.2

theorem unasked_fill (catalogue : Catalogue) (call : Filling) :
    (call.fill catalogue).unasked = call.fill catalogue.unasked := by
  rw [fill_eq, fill_eq]
  induction call.offers generalizing catalogue with
  | nil => rfl
  | cons offer rest ih => rw [List.foldl_cons, List.foldl_cons, ih, unasked_take]

theorem unasked_foldl_fill (catalogue : Catalogue) (calls : List Filling) :
    (calls.foldl Filling.fill catalogue).unasked = calls.foldl Filling.fill catalogue.unasked := by
  induction calls generalizing catalogue with
  | nil => rfl
  | cons call rest ih => rw [List.foldl_cons, List.foldl_cons, ih, unasked_fill]

/-! ## Walks and resolution -/

theorem onward?_unasked (catalogue : Catalogue) (name : String) :
    catalogue.unasked.onward? name = (catalogue.onward? name).map ClassEntry.unasked := by
  have hroot : catalogue.unasked.isRoot name = catalogue.isRoot name := rfl
  rw [onward?, onward?, hroot, find?_unasked]
  split
  · rfl
  · rfl

theorem walks_unasked (catalogue : Catalogue) (hops : Nat) (name : String) :
    catalogue.unasked.ancestorsFrom hops name =
        (catalogue.ancestorsFrom hops name).map ClassEntry.unasked ∧
      catalogue.unasked.reachesRoot hops name = catalogue.reachesRoot hops name :=
  walks_eq (fun _ => rfl) (fun _ => rfl) fun _ _ place _ => onward?_unasked catalogue place

theorem resolve_unasked (catalogue : Catalogue) (entry : ClassEntry) :
    catalogue.unasked.resolve entry.unasked = catalogue.resolve entry := by
  have hancestors : catalogue.unasked.ancestors entry.unasked =
      (catalogue.ancestors entry).map ClassEntry.unasked :=
    (walks_unasked catalogue maxHops entry.superSimpleName).1
  rw [resolve, hancestors, propertyMap, List.foldl_map]
  rfl

theorem isActivity_unasked (catalogue : Catalogue) (entry : ClassEntry) :
    catalogue.unasked.isActivity entry.unasked = catalogue.isActivity entry :=
  (walks_unasked catalogue maxHops entry.superSimpleName).2

theorem isAccessible_unasked (catalogue : Catalogue) (entry : ClassEntry) :
    catalogue.unasked.isAccessible entry.unasked = catalogue.isAccessible entry := by
  rw [isAccessible, isAccessible, isActivity_unasked]
  rfl

theorem filter_entries_unasked {test unaskedTest : ClassEntry → Bool}
    (htest : ∀ entry, unaskedTest entry.unasked = test entry) :
    catalogue.unasked.entries.filter unaskedTest =
      (catalogue.entries.filter test).map ClassEntry.unasked := by
  have hcomposed : unaskedTest ∘ ClassEntry.unasked = test := funext htest
  rw [entries_unasked, List.filter_map, hcomposed]

theorem accessible_unasked (catalogue : Catalogue) :
    catalogue.unasked.accessible = catalogue.accessible.map ClassEntry.unasked :=
  filter_entries_unasked (isAccessible_unasked catalogue)

theorem listed_unasked (catalogue : Catalogue) (package : String) :
    Listing.listed catalogue.unasked package =
      (Listing.listed catalogue package).map ClassEntry.unasked := by
  have hactivities : catalogue.unasked.activitiesOf package =
      (catalogue.activitiesOf package).map ClassEntry.unasked :=
    filter_entries_unasked fun entry => by rw [isActivity_unasked]; rfl
  rw [Listing.listed, hactivities, List.filter_map]
  rfl

/-! ## Answers -/

/-- Whatever a class has settled on is what resolution gives now. -/
def IsFresh (catalogue : Catalogue) : Prop :=
  ∀ entry ∈ catalogue.entries, catalogue.properties entry = catalogue.resolve entry

theorem properties_unasked (catalogue : Catalogue) (entry : ClassEntry) :
    catalogue.unasked.properties entry.unasked = catalogue.resolve entry :=
  resolve_unasked catalogue entry

theorem IsFresh.properties_eq (hfresh : catalogue.IsFresh) (hentry : entry ∈ catalogue.entries) :
    catalogue.properties entry = catalogue.unasked.properties entry.unasked := by
  rw [properties_unasked, hfresh entry hentry]

theorem IsFresh.map_properties_eq (hfresh : catalogue.IsFresh) (name : String) :
    (catalogue.find? name).map catalogue.properties =
      (catalogue.unasked.find? name).map catalogue.unasked.properties := by
  rw [find?_unasked, Option.map_map]
  refine Option.map_congr fun entry hentry => ?_
  exact hfresh.properties_eq (mem_entries_of_find? hentry)

theorem IsFresh.listing_eq (hfresh : catalogue.IsFresh) (simplifier : Simplifier) :
    catalogue.listing simplifier = catalogue.unasked.listing simplifier := by
  have hblock : ∀ package, ∀ entry ∈ Listing.listed catalogue package,
      Listing.classBlock catalogue simplifier entry =
        Listing.classBlock catalogue.unasked simplifier entry.unasked := by
    intro package entry hentry
    have hmem : entry ∈ catalogue.entries :=
      (List.mem_filter.mp (List.mem_filter.mp hentry).1).1
    rw [Listing.classBlock, Listing.classBlock, hfresh.properties_eq hmem]
    rfl
  have hpackage : ∀ package, Listing.packageBlock catalogue simplifier package =
      Listing.packageBlock catalogue.unasked simplifier package := by
    intro package
    rw [Listing.packageBlock, Listing.packageBlock, listed_unasked, List.map_map,
      List.map_congr_left (hblock package)]
    rfl
  rw [listing, listing, funext hpackage]
  rfl

end Catalogue

namespace Comparison

/-- The event as it tells of a class whose properties were not asked for before. -/
def Event.unasked : Event → Event
  | classOnlyIn side entry properties => classOnlyIn side entry.unasked properties
  | propertyMatch property => propertyMatch property
  | propertyOnlyIn side property => propertyOnlyIn side property

theorem Event.unasked_comp_unasked : Event.unasked ∘ Event.unasked = Event.unasked := by
  funext event
  cases event with
  | classOnlyIn side entry properties => rfl
  | propertyMatch property => rfl
  | propertyOnlyIn side property => rfl

variable {first second : Catalogue}

/-- The place with both of its classes before their properties were asked for. -/
def unaskedPlace : Aligned ClassEntry ClassEntry → Aligned ClassEntry ClassEntry
  | .first entry => .first entry.unasked
  | .second entry => .second entry.unasked
  | .both l r => .both l.unasked r.unasked

theorem align_unasked (left right : List ClassEntry) :
    align classOrder (left.map ClassEntry.unasked) (right.map ClassEntry.unasked) =
      (align classOrder left right).map unaskedPlace := by
  fun_induction align classOrder left right with
  | case1 right => simp [align, List.map_map, Function.comp_def, unaskedPlace]
  | case2 left _ => simp [align_nil_right, List.map_map, Function.comp_def, unaskedPlace]
  | case3 l left r right horder ih =>
      have hunasked : classOrder l.unasked r.unasked = .lt := horder
      rw [List.map_cons] at ih
      simp only [List.map_cons, align, hunasked, ih, unaskedPlace]
  | case4 l left r right horder ih =>
      have hunasked : classOrder l.unasked r.unasked = .gt := horder
      rw [List.map_cons] at ih
      simp only [List.map_cons, align, hunasked, ih, unaskedPlace]
  | case5 l left r right horder ih =>
      have hunasked : classOrder l.unasked r.unasked = .eq := horder
      simp only [List.map_cons, align, hunasked, ih, unaskedPlace]

theorem map_unasked_propertyEvents (sensitivity : Sensitivity) (left right : List Property) :
    (propertyEvents sensitivity left right).map Event.unasked =
      propertyEvents sensitivity left right := by
  rw [propertyEvents, List.map_flatMap]
  refine List.flatMap_congr fun place _ => ?_
  cases place with
  | first l => rfl
  | second r => rfl
  | both l r =>
      rw [propertyEventsAt]
      split
      · rfl
      · rfl

theorem mem_entries_of_align {place : Aligned ClassEntry ClassEntry}
    (hplace : place ∈ align classOrder first.accessible second.accessible) :
    (∀ l, place.first? = some l → l ∈ first.entries) ∧
      ∀ r, place.second? = some r → r ∈ second.entries := by
  constructor
  · intro l hl
    exact (List.mem_filter.mp (mem_of_first?_align hplace hl)).1
  · intro r hr
    exact (List.mem_filter.mp (mem_of_second?_align hplace hr)).1

theorem events_eq_unasked (hfirst : first.IsFresh) (hsecond : second.IsFresh)
    (sensitivity : Sensitivity) :
    (events sensitivity first second).map Event.unasked =
      events sensitivity first.unasked second.unasked := by
  rw [events_eq_flatMap_align, events_eq_flatMap_align, Catalogue.accessible_unasked,
    Catalogue.accessible_unasked, align_unasked, List.map_flatMap, List.flatMap_map]
  refine List.flatMap_congr fun place hplace => ?_
  obtain ⟨hleft, hright⟩ := mem_entries_of_align hplace
  cases place with
  | first l =>
      simp only [classEvents, unaskedPlace, ← hfirst.properties_eq (hleft l rfl)]
      rfl
  | second r =>
      simp only [classEvents, unaskedPlace, ← hsecond.properties_eq (hright r rfl)]
      rfl
  | both l r =>
      simp only [classEvents, unaskedPlace, ← hfirst.properties_eq (hleft l rfl),
        ← hsecond.properties_eq (hright r rfl)]
      exact map_unasked_propertyEvents sensitivity _ _

theorem differenceCount_map_unasked (told : List Event) :
    differenceCount (told.map Event.unasked) = differenceCount told := by
  have hsame : Event.isDifference ∘ Event.unasked = Event.isDifference := by
    funext event
    cases event with
    | classOnlyIn side entry properties => rfl
    | propertyMatch property => rfl
    | propertyOnlyIn side property => rfl
  rw [differenceCount, List.countP_map, hsame, differenceCount]

theorem differences_eq_unasked (hfirst : first.IsFresh) (hsecond : second.IsFresh)
    (sensitivity : Sensitivity) :
    differences sensitivity first second =
      differences sensitivity first.unasked second.unasked := by
  rw [differences_eq, differences_eq, ← events_eq_unasked hfirst hsecond,
    differenceCount_map_unasked]

end Comparison

end ActivityCatalogue
