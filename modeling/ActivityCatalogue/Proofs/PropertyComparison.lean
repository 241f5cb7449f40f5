import ActivityCatalogue.Proofs.CatalogueComparison

/-!
# What a comparison of two property lists tells

* **Lists in any order.**  Both are used up from front to back: the events hold the
  properties of the first list, and the names of the second one, in their order
  (`ofFirst_propertyEvents`, `namesOfSecond_propertyEvents`).  A match shows the property
  of the first list only, and the other one has its name.
* **Ascending lists.**  Whether a property is told to be in one list only depends on the
  lists alone: the other list has none that counts as the same one
  (`onlyInFirst_propertyEvents`, `onlyInSecond_propertyEvents`).  Under which key two
  properties count as the same is the matter of the sensitivity (`Identifies`): pairs of
  name and type if types are compared, else names.

So the count is the size of a symmetric difference of two sets of keys
(`propertyDifferences_eq_card`).
-/

namespace ActivityCatalogue

namespace Comparison

/-! ## Reading events -/

/-- The display name of the property that an event tells of. -/
def Event.displayName? : Event → Option String
  | .classOnlyIn .. => none
  | .propertyMatch property | .propertyOnlyIn _ property => some property.displayName

/-- The property that the first list has at an event. -/
def Event.ofFirst? : Event → Option Property
  | .propertyMatch property | .propertyOnlyIn .first property => some property
  | .classOnlyIn .. | .propertyOnlyIn .second _ => none

/-- The name of the property that the second list has at an event. -/
def Event.nameInSecond? : Event → Option String
  | .propertyMatch property | .propertyOnlyIn .second property => some property.displayName
  | .classOnlyIn .. | .propertyOnlyIn .first _ => none

/-- The property that an event tells to be on one side only. -/
def Event.onlyIn? (side : Side) : Event → Option Property
  | .propertyOnlyIn other property => if other = side then some property else none
  | .classOnlyIn .. | .propertyMatch _ => none

variable {sensitivity : Sensitivity} {first second : List Property}

/-- What is read from the events is read from the places. -/
theorem filterMap_propertyEvents {γ : Type} {read : Event → Option γ}
    {show? : Aligned Property Property → Option γ}
    (hread : ∀ place ∈ align propertyOrder first second,
      (propertyEventsAt sensitivity place).filterMap read = (show? place).toList) :
    (propertyEvents sensitivity first second).filterMap read =
      (align propertyOrder first second).filterMap show? := by
  rw [propertyEvents, List.filterMap_flatMap, List.filterMap_eq_flatMap_toList]
  exact List.flatMap_congr hread

/-- Properties that stand together have one name, in lists of any order. -/
theorem displayName_eq_of_both {l r : Property}
    (hplace : .both l r ∈ align propertyOrder first second) : l.displayName = r.displayName := by
  have hequal : propertyOrder l r = .eq := eq_of_both_mem_align hplace
  exact ordinal_eq_eq_iff.mp hequal

/-! ## Both lists are used up -/

theorem ofFirst_propertyEvents (sensitivity : Sensitivity) (first second : List Property) :
    (propertyEvents sensitivity first second).filterMap Event.ofFirst? = first := by
  refine (filterMap_propertyEvents fun place _ => ?_).trans
    (filterMap_first?_align propertyOrder first second)
  cases place with
  | first l => rfl
  | second r => rfl
  | both l r =>
      rw [propertyEventsAt]
      split
      · rfl
      · rfl

theorem namesOfSecond_propertyEvents (sensitivity : Sensitivity) (first second : List Property) :
    (propertyEvents sensitivity first second).filterMap Event.nameInSecond? =
      second.map Property.displayName := by
  have hplaces : (propertyEvents sensitivity first second).filterMap Event.nameInSecond? =
      (align propertyOrder first second).filterMap
        fun place => place.second?.map Property.displayName := by
    refine filterMap_propertyEvents fun place hplace => ?_
    cases place with
    | first l => rfl
    | second r => rfl
    | both l r =>
        have hname : l.displayName = r.displayName := displayName_eq_of_both hplace
        rw [propertyEventsAt]
        split
        · rfl
        · exact congrArg ([·]) hname
  rw [hplaces, ← List.map_filterMap, filterMap_second?_align]

/-- Every event of two property lists tells of a property. -/
theorem displayName?_propertyEventsAt {place : Aligned Property Property} {event : Event}
    (hplace : place ∈ align propertyOrder first second)
    (hevent : event ∈ propertyEventsAt sensitivity place) :
    event.displayName? = some (place.key Property.displayName Property.displayName) := by
  cases place with
  | first l =>
      obtain rfl := List.mem_singleton.mp hevent
      rfl
  | second r =>
      obtain rfl := List.mem_singleton.mp hevent
      rfl
  | both l r =>
      have hname : l.displayName = r.displayName := displayName_eq_of_both hplace
      rw [propertyEventsAt] at hevent
      split at hevent
      · rcases List.mem_pair.mp hevent with rfl | rfl
        · rfl
        · exact congrArg some hname.symm
      · obtain rfl := List.mem_singleton.mp hevent
        rfl

/-- Differences are told on one side or on the other. -/
theorem differenceCount_propertyEvents (sensitivity : Sensitivity) (first second : List Property) :
    differenceCount (propertyEvents sensitivity first second) =
      ((propertyEvents sensitivity first second).filterMap (Event.onlyIn? .first)).length +
        ((propertyEvents sensitivity first second).filterMap (Event.onlyIn? .second)).length := by
  have hproperties : ∀ event ∈ propertyEvents sensitivity first second,
      event.displayName? ≠ none := by
    intro event hevent
    obtain ⟨place, hplace, hevent⟩ := List.mem_flatMap.mp hevent
    rw [displayName?_propertyEventsAt hplace hevent]
    exact Option.some_ne_none _
  generalize propertyEvents sensitivity first second = events at hproperties
  induction events with
  | nil => rfl
  | cons event events ih =>
      obtain ⟨hevent, hevents⟩ := List.forall_mem_cons.mp hproperties
      have hrest := ih hevents
      unfold differenceCount at hrest ⊢
      rw [List.countP_cons, hrest]
      cases event with
      | classOnlyIn side entry properties => exact absurd rfl hevent
      | propertyMatch property => rfl
      | propertyOnlyIn side property =>
          cases side with
          | first => simp [Event.isDifference, Event.onlyIn?]; omega
          | second => simp [Event.isDifference, Event.onlyIn?]; omega

/-! ## Ascending lists -/

/-- The display names ascend strictly by their bytes. -/
def AscendByName (properties : List Property) : Prop :=
  properties.Pairwise fun earlier later => BytesBefore earlier.displayName later.displayName

theorem AscendByName.ascendingBy {properties : List Property}
    (hascend : AscendByName properties) : AscendingBy Property.displayName properties :=
  hascend.imp (bytesBefore_iff_lt _ _).mp

/-- Properties have one key exactly if they have one name and the sensitivity does not
separate them. -/
def Identifies {κ : Type} (sensitivity : Sensitivity) (key : Property → κ) : Prop :=
  ∀ l r, key l = key r ↔ l.displayName = r.displayName ∧ sensitivity.separates l r = false

theorem identifies_typed (htyped : sensitivity ≠ .untyped) :
    Identifies sensitivity fun property => (property.displayName, property.typeFullName) := by
  intro l r
  have hcompares : sensitivity.comparesTypes = true := by
    cases sensitivity with
    | untyped => exact absurd rfl htyped
    | typedLoose => rfl
    | typedStrict => rfl
  simp [Sensitivity.separates, hcompares]

theorem identifies_untyped : Identifies .untyped Property.displayName := by
  intro l r
  simp [Sensitivity.separates, Sensitivity.comparesTypes]

section

variable {κ : Type} {key : Property → κ}

/-- A list of different names holds the key of a property only under its name. -/
theorem key_mem_map_iff (hkey : Identifies sensitivity key) {properties : List Property}
    (hascending : AscendingBy Property.displayName properties) {l r : Property}
    (hr : r ∈ properties) (hname : l.displayName = r.displayName) :
    key l ∈ properties.map key ↔ sensitivity.separates l r = false := by
  rw [List.mem_map]
  constructor
  · rintro ⟨other, hother, hsame⟩
    have hidentified := (hkey l other).mp hsame.symm
    obtain rfl : other = r :=
      hascending.eq_of_name_eq hother hr (hidentified.1.symm.trans hname)
    exact hidentified.2
  · intro hunseparated
    exact ⟨r, hr, ((hkey l r).mpr ⟨hname, hunseparated⟩).symm⟩

/-- A list that does not have the name of a property does not have its key. -/
theorem key_not_mem_map (hkey : Identifies sensitivity key) {properties : List Property}
    {l : Property} (hname : ∀ r ∈ properties, l.displayName ≠ r.displayName) :
    key l ∉ properties.map key := by
  rw [List.mem_map]
  rintro ⟨other, hother, hsame⟩
  exact hname other hother ((hkey l other).mp hsame.symm).1

variable [DecidableEq κ]

/-- **What only the first list has** is told so, in its order. -/
theorem onlyInFirst_propertyEvents (hkey : Identifies sensitivity key)
    (hfirst : AscendingBy Property.displayName first)
    (hsecond : AscendingBy Property.displayName second) :
    (propertyEvents sensitivity first second).filterMap (Event.onlyIn? .first) =
      first.filter fun l => key l ∉ second.map key := by
  have hplaces : (propertyEvents sensitivity first second).filterMap (Event.onlyIn? .first) =
      (align propertyOrder first second).filterMap
        fun place => place.first?.filter fun l => key l ∉ second.map key := by
    refine filterMap_propertyEvents fun place hplace => ?_
    have hfits := fits_of_mem_align hfirst hsecond hplace
    cases place with
    | first l =>
        have halone : key l ∉ second.map key := key_not_mem_map hkey hfits.2
        rw [Aligned.first?, Option.filter_some, if_pos (decide_eq_true halone)]
        rfl
    | second r => rfl
    | both l r =>
        have hshared := key_mem_map_iff hkey hsecond hfits.2.1 hfits.2.2
        rw [Aligned.first?, Option.filter_some, propertyEventsAt]
        cases hseparates : sensitivity.separates l r with
        | false =>
            have hfound : key l ∈ second.map key := hshared.mpr hseparates
            rw [if_neg (ne_true_of_eq_false (decide_eq_false (not_not_intro hfound)))]
            rfl
        | true =>
            have hmissing : key l ∉ second.map key := by
              intro hmem
              rw [hshared.mp hmem] at hseparates
              exact Bool.false_ne_true hseparates
            rw [if_pos (decide_eq_true hmissing)]
            rfl
  rw [hplaces, ← List.filter_filterMap, filterMap_first?_align]

/-- What is told to be in the second list only is what is told to be in the first one
only, once the lists are exchanged. -/
theorem onlyIn_propertyEvents_exchanged (sensitivity : Sensitivity)
    (first second : List Property) :
    (propertyEvents sensitivity first second).filterMap (Event.onlyIn? .second) =
      (propertyEvents sensitivity second first).filterMap (Event.onlyIn? .first) := by
  have halign : align propertyOrder second first =
      (align propertyOrder first second).map Aligned.exchanged :=
    align_exchanged (fun _ _ => ordinal_swap _ _) _ _
  rw [propertyEvents, propertyEvents, halign, List.flatMap_map, List.filterMap_flatMap,
    List.filterMap_flatMap]
  refine List.flatMap_congr fun place _ => ?_
  cases place with
  | first l => rfl
  | second r => rfl
  | both l r =>
      simp only [Aligned.exchanged, propertyEventsAt, separates_comm sensitivity r l]
      split
      · rfl
      · rfl

/-- The properties of one list that the other one lacks have as many keys. -/
theorem card_keys_sdiff (hkey : Identifies sensitivity key) {properties others : List Property}
    (hascending : AscendingBy Property.displayName properties) :
    ((properties.map key).toFinset \ (others.map key).toFinset).card =
      (properties.filter fun property => key property ∉ others.map key).length := by
  have hkeys : (properties.map key).toFinset \ (others.map key).toFinset =
      ((properties.filter fun property => key property ∉ others.map key).map key).toFinset := by
    ext k
    simp only [Finset.mem_sdiff, List.mem_toFinset, List.mem_map, List.mem_filter,
      decide_eq_true_eq]
    constructor
    · rintro ⟨⟨property, hproperty, rfl⟩, hmissing⟩
      exact ⟨property, ⟨hproperty, hmissing⟩, rfl⟩
    · rintro ⟨property, ⟨hproperty, hmissing⟩, rfl⟩
      exact ⟨⟨property, hproperty, rfl⟩, hmissing⟩
  have hnodup : (properties.map key).Nodup :=
    List.pairwise_map.mpr (hascending.imp fun hlt hsame => hlt.ne ((hkey _ _).mp hsame).1)
  rw [hkeys, List.toFinset_card_of_nodup (hnodup.sublist (List.filter_sublist.map key)),
    List.length_map]

/-- **The count** is the size of the symmetric difference of the keys. -/
theorem propertyDifferences_eq_card (hkey : Identifies sensitivity key)
    (hfirst : AscendingBy Property.displayName first)
    (hsecond : AscendingBy Property.displayName second) :
    propertyDifferences sensitivity first second =
      (symmDiff (first.map key).toFinset (second.map key).toFinset).card := by
  rw [propertyDifferences_eq, differenceCount_propertyEvents, onlyIn_propertyEvents_exchanged,
    onlyInFirst_propertyEvents hkey hfirst hsecond, onlyInFirst_propertyEvents hkey hsecond hfirst,
    symmDiff_def, Finset.sup_eq_union, Finset.card_union_of_disjoint disjoint_sdiff_sdiff,
    card_keys_sdiff hkey hfirst, card_keys_sdiff hkey hsecond]

end

/-! ## Names -/

section

variable (hfirst : AscendingBy Property.displayName first)
  (hsecond : AscendingBy Property.displayName second)

include hfirst hsecond

/-- The events ascend by name. -/
theorem exists_names_propertyEvents :
    ∃ names : List String,
      (propertyEvents sensitivity first second).map Event.displayName? = names.map some ∧
      names.Pairwise fun earlier later => BytesBefore earlier later ∨ earlier = later := by
  refine ⟨(align propertyOrder first second).flatMap fun place =>
    (propertyEventsAt sensitivity place).map fun _ =>
      place.key Property.displayName Property.displayName, ?_, ?_⟩
  · rw [propertyEvents, List.map_flatMap, List.map_flatMap]
    refine List.flatMap_congr fun place hplace => ?_
    rw [List.map_map]
    exact List.map_congr_left fun event hevent => displayName?_propertyEventsAt hplace hevent
  · rw [List.pairwise_flatMap]
    constructor
    · intro place _
      exact List.pairwise_map.mpr (List.pairwise_of_forall fun _ _ => Or.inr rfl)
    · refine (pairwise_key_align hfirst hsecond).imp fun {earlier later} hlt => ?_
      intro name hname other hother
      obtain ⟨_, -, rfl⟩ := List.mem_map.mp hname
      obtain ⟨_, -, rfl⟩ := List.mem_map.mp hother
      exact Or.inl (bytesBefore_of_lt hlt)

/-- A name is matched exactly if both lists have it and its types are not told apart. -/
theorem matched_iff {name : String} :
    (∃ property, .propertyMatch property ∈ propertyEvents sensitivity first second ∧
        property.displayName = name) ↔
      ∃ l ∈ first, ∃ r ∈ second, l.displayName = name ∧ r.displayName = name ∧
        (sensitivity = .untyped ∨ l.typeFullName = r.typeFullName) := by
  have hunseparated : ∀ l r : Property, sensitivity.separates l r = false ↔
      sensitivity = .untyped ∨ l.typeFullName = r.typeFullName :=
    fun l r => separates_eq_false_iff.trans or_iff_not_imp_left.symm
  constructor
  · rintro ⟨property, hmatch, rfl⟩
    obtain ⟨place, hplace, hevent⟩ := List.mem_flatMap.mp hmatch
    cases place with
    | first l => simp [propertyEventsAt] at hevent
    | second r => simp [propertyEventsAt] at hevent
    | both l r =>
        obtain ⟨hl, hr, hname⟩ := fits_of_mem_align hfirst hsecond hplace
        rw [propertyEventsAt] at hevent
        split at hevent
        · simp at hevent
        · next hsame =>
            obtain rfl := Event.propertyMatch.inj (List.mem_singleton.mp hevent)
            exact ⟨property, hl, r, hr, rfl, hname.symm,
              (hunseparated _ _).mp (Bool.eq_false_of_not_eq_true hsame)⟩
  · rintro ⟨l, hl, r, hr, rfl, hname, hsame⟩
    have hplace : .both l r ∈ align propertyOrder first second :=
      (both_mem_align_iff hfirst hsecond).mpr ⟨hl, hr, hname.symm⟩
    refine ⟨l, List.mem_flatMap.mpr ⟨.both l r, hplace, ?_⟩, rfl⟩
    rw [propertyEventsAt, (hunseparated l r).mpr hsame]
    exact List.mem_singleton_self _

/-- What both lists have with two types is told by two events, side by side. -/
theorem retyped_infix (htyped : sensitivity ≠ .untyped) {l r : Property} (hl : l ∈ first)
    (hr : r ∈ second) (hname : l.displayName = r.displayName)
    (htypes : l.typeFullName ≠ r.typeFullName) :
    [.propertyOnlyIn .first l, .propertyOnlyIn .second r] <:+:
      propertyEvents sensitivity first second := by
  have hplace : .both l r ∈ align propertyOrder first second :=
    (both_mem_align_iff hfirst hsecond).mpr ⟨hl, hr, hname⟩
  have hseparates : sensitivity.separates l r = true := by
    by_contra hsame
    exact htypes (separates_eq_false_iff.mp (Bool.eq_false_of_not_eq_true hsame) htyped)
  have hevents : propertyEventsAt sensitivity (.both l r) =
      [.propertyOnlyIn .first l, .propertyOnlyIn .second r] := if_pos hseparates
  obtain ⟨before, after, hplaces⟩ := List.append_of_mem hplace
  refine ⟨before.flatMap (propertyEventsAt sensitivity),
    after.flatMap (propertyEventsAt sensitivity), ?_⟩
  rw [propertyEvents, hplaces, List.flatMap_append, List.flatMap_cons, hevents, List.append_assoc]

end

/-! ## Main statement -/

/-- **Main statement.**  A comparison uses up two property lists from front to back, whatever
their order: the entries of its events on the first side are the first list, the names on the
second side are those of the second list, and the count is the number of events that are no
match.

If both lists ascend strictly by name, so do the events, but for the two events of a property
that was retyped, which stand side by side.  A name is matched exactly if both lists have it
and types are left out or equal.  The count is the size of the symmetric difference of the
lists, as sets of names with types or as sets of names. -/
theorem propertyEvents_use_up_lists (sensitivity : Sensitivity) (first second : List Property) :
    let events := propertyEvents sensitivity first second
    events.filterMap Event.ofFirst? = first ∧
    events.filterMap Event.nameInSecond? = second.map Property.displayName ∧
    propertyDifferences sensitivity first second = events.countP Event.isDifference ∧
    (AscendByName first → AscendByName second →
      (∃ names : List String, events.map Event.displayName? = names.map some ∧
        names.Pairwise fun earlier later => BytesBefore earlier later ∨ earlier = later) ∧
      (∀ name, (∃ property, .propertyMatch property ∈ events ∧ property.displayName = name) ↔
        ∃ l ∈ first, ∃ r ∈ second, l.displayName = name ∧ r.displayName = name ∧
          (sensitivity = .untyped ∨ l.typeFullName = r.typeFullName)) ∧
      (sensitivity ≠ .untyped → ∀ l ∈ first, ∀ r ∈ second, l.displayName = r.displayName →
        l.typeFullName ≠ r.typeFullName →
          [.propertyOnlyIn .first l, .propertyOnlyIn .second r] <:+: events) ∧
      (sensitivity ≠ .untyped → propertyDifferences sensitivity first second =
        (symmDiff (first.map fun l => (l.displayName, l.typeFullName)).toFinset
          (second.map fun r => (r.displayName, r.typeFullName)).toFinset).card) ∧
      (sensitivity = .untyped → propertyDifferences sensitivity first second =
        (symmDiff (first.map Property.displayName).toFinset
          (second.map Property.displayName).toFinset).card)) := by
  intro events
  refine ⟨ofFirst_propertyEvents .., namesOfSecond_propertyEvents .., propertyDifferences_eq ..,
    fun hfirstNames hsecondNames => ?_⟩
  have hfirst := hfirstNames.ascendingBy
  have hsecond := hsecondNames.ascendingBy
  refine ⟨exists_names_propertyEvents hfirst hsecond, fun name => ?_,
    fun htyped l hl r hr hname htype => ?_, fun htyped => ?_, ?_⟩
  · exact matched_iff hfirst hsecond
  · exact retyped_infix hfirst hsecond htyped hl hr hname htype
  · exact propertyDifferences_eq_card (identifies_typed htyped) hfirst hsecond
  · rintro rfl
    exact propertyDifferences_eq_card identifies_untyped hfirst hsecond

/-- Of four names one goes, one stays, one is retyped and one comes. -/
theorem propertyEvents_use_up_retyped :
    let former : List Property := [⟨"Base::Name", "String", "Base", "Fade"⟩,
      ⟨"Delay", "Int32", "Fade", "Fade"⟩, ⟨"Speed", "Int32", "Fade", "Fade"⟩]
    let latter : List Property := [⟨"Base::Name", "String", "Base", "Fade"⟩,
      ⟨"Easing", "String", "Fade", "Fade"⟩, ⟨"Speed", "Double", "Fade", "Fade"⟩]
    AscendByName former ∧ AscendByName latter ∧
    [.propertyOnlyIn .first ⟨"Speed", "Int32", "Fade", "Fade"⟩,
      .propertyOnlyIn .second ⟨"Speed", "Double", "Fade", "Fade"⟩] <:+:
        propertyEvents .typedStrict former latter ∧
    propertyDifferences .typedStrict former latter = 4 ∧
    (symmDiff (former.map fun l => (l.displayName, l.typeFullName)).toFinset
      (latter.map fun r => (r.displayName, r.typeFullName)).toFinset).card = 4 := by
  intro former latter
  have hformer : AscendByName former :=
    List.Pairwise.imp bytesBefore_of_lt (by decide :
      former.Pairwise fun earlier later => earlier.displayName < later.displayName)
  have hlatter : AscendByName latter :=
    List.Pairwise.imp bytesBefore_of_lt (by decide :
      latter.Pairwise fun earlier later => earlier.displayName < later.displayName)
  have hcount : propertyDifferences .typedStrict former latter = 4 := by decide +kernel
  obtain ⟨-, -, -, hascending⟩ := propertyEvents_use_up_lists .typedStrict former latter
  obtain ⟨-, -, hretyped, hdifference, -⟩ := hascending hformer hlatter
  refine ⟨hformer, hlatter, ?_, hcount, (hdifference nofun).symm.trans hcount⟩
  exact hretyped nofun _ (by decide) _ (by decide) rfl (by decide)

end Comparison

end ActivityCatalogue
