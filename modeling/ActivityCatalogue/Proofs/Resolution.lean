import ActivityCatalogue.Proofs.Ancestry
import ActivityCatalogue.Proofs.ByteOrder

/-!
# What a class shows after resolution

The properties that a class may show are met as candidates: its own ones, then
those of each ancestor on its walk, nearest first.  `Candidate.survivors` says which
of them stay, without a map: a candidate stays if its name is new among those
kept before it, unless it is suppressed.  Resolution shows exactly the kept
candidates (`resolve_perm_survivors`).

The map that resolution works on holds one entry for each kept candidate
(`Holds`), so looking up a name in it asks for the name of a kept candidate, be
it an own name or a decorated one.
-/

namespace ActivityCatalogue

/-! ## Candidates -/

/-- A property that a class may show: one that it declares itself, or an ancestor's. -/
structure Candidate where
  ancestor? : Option ClassEntry
  declared : DeclaredProperty

namespace Candidate

variable {entry : ClassEntry} {kept candidates before after : List Candidate}
  {candidate : Candidate} {name : String}

/-- The name under which a class shows the candidate. -/
def displayName (entry : ClassEntry) (candidate : Candidate) : String :=
  match candidate.ancestor? with
  | none => candidate.declared.name
  | some ancestor => decorate entry ancestor candidate.declared.name

/-- The candidate as a class shows it. -/
def property (entry : ClassEntry) (candidate : Candidate) : Property where
  displayName := candidate.displayName entry
  typeFullName := candidate.declared.typeFullName
  owningClass := (candidate.ancestor?.getD entry).simpleName
  resolvedFor := entry.simpleName

/-- One of the candidates is shown under the name. -/
def Shows (entry : ClassEntry) (kept : List Candidate) (name : String) : Prop :=
  ∃ candidate ∈ kept, candidate.displayName entry = name

/-- An ancestor's property with a virtual getter is overridden if its plain name is shown. -/
def Suppressed (entry : ClassEntry) (kept : List Candidate) (candidate : Candidate) : Prop :=
  candidate.ancestor?.isSome = true ∧ candidate.declared.getterIsVirtual = true ∧
    Shows entry kept candidate.declared.name

instance : Decidable (Shows entry kept name) := inferInstanceAs (Decidable (∃ _ ∈ _, _))

instance : Decidable (Suppressed entry kept candidate) := inferInstanceAs (Decidable (_ ∧ _))

/-- Keeps a further candidate if it is not suppressed and its name is new. -/
def keep (entry : ClassEntry) (kept : List Candidate) (candidate : Candidate) : List Candidate :=
  if Suppressed entry kept candidate ∨ Shows entry kept (candidate.displayName entry) then kept
  else kept ++ [candidate]

/-- The candidates that are kept when they are met in order. -/
def survivors (entry : ClassEntry) (candidates : List Candidate) : List Candidate :=
  candidates.foldl (keep entry) []

/-- What a class declares itself, in order. -/
def own (entry : ClassEntry) : List Candidate :=
  (entry.declared.filter DeclaredProperty.isEligible).map (Candidate.mk none)

/-- What an ancestor declares, in order. -/
def handedDown (ancestor : ClassEntry) : List Candidate :=
  (ancestor.declared.filter DeclaredProperty.isEligible).map (Candidate.mk (some ancestor))

/-- All candidates of a class with the given ancestors, in order. -/
def all (entry : ClassEntry) (ancestors : List ClassEntry) : List Candidate :=
  own entry ++ ancestors.flatMap handedDown

theorem mem_all_iff {ancestors : List ClassEntry} :
    candidate ∈ all entry ancestors ↔
      candidate ∈ own entry ∨ ∃ ancestor ∈ ancestors, candidate ∈ handedDown ancestor := by
  rw [all, List.mem_append, List.mem_flatMap]

theorem ancestor?_of_mem_own (hown : candidate ∈ own entry) : candidate.ancestor? = none := by
  obtain ⟨declared, -, rfl⟩ := List.mem_map.mp hown
  rfl

theorem ancestor?_of_mem_handedDown {ancestor : ClassEntry}
    (hhandedDown : candidate ∈ handedDown ancestor) : candidate.ancestor? = some ancestor := by
  obtain ⟨declared, -, rfl⟩ := List.mem_map.mp hhandedDown
  rfl

theorem mem_own_of_mem_all {ancestors : List ClassEntry}
    (hcandidate : candidate ∈ all entry ancestors) (hnone : candidate.ancestor? = none) :
    candidate ∈ own entry := by
  rcases mem_all_iff.mp hcandidate with hown | ⟨ancestor, -, hhandedDown⟩
  · exact hown
  · rw [ancestor?_of_mem_handedDown hhandedDown] at hnone
    exact nomatch hnone

/-- A candidate of an ancestor is one that this ancestor hands down. -/
theorem mem_handedDown_of_mem_all {ancestor : ClassEntry} {ancestors : List ClassEntry}
    (hcandidate : candidate ∈ all entry ancestors)
    (hancestor : candidate.ancestor? = some ancestor) :
    ancestor ∈ ancestors ∧ candidate ∈ handedDown ancestor := by
  rcases mem_all_iff.mp hcandidate with hown | ⟨source, hsource, hhandedDown⟩
  · rw [ancestor?_of_mem_own hown] at hancestor
    exact nomatch hancestor
  · rw [ancestor?_of_mem_handedDown hhandedDown] at hancestor
    obtain rfl := Option.some.inj hancestor
    exact ⟨hsource, hhandedDown⟩

theorem ancestor_mem_of_mem_all {ancestor : ClassEntry} {ancestors : List ClassEntry}
    (hcandidate : candidate ∈ all entry ancestors)
    (hancestor : candidate.ancestor? = some ancestor) : ancestor ∈ ancestors :=
  (mem_handedDown_of_mem_all hcandidate hancestor).1

/-- Further ancestors add candidates and take none away. -/
theorem all_subset {ancestors further : List ClassEntry} (hpart : ancestors <+: further) :
    all entry ancestors ⊆ all entry further := by
  obtain ⟨rest, rfl⟩ := hpart
  rw [all, all, List.flatMap_append, ← List.append_assoc]
  exact List.subset_append_left _ _

/-! ## Which candidates are kept -/

theorem prefix_keep (kept : List Candidate) (candidate : Candidate) :
    kept <+: keep entry kept candidate := by
  rw [keep]
  split_ifs
  · exact List.prefix_rfl
  · exact List.prefix_append _ _

theorem prefix_foldl_keep (kept candidates : List Candidate) :
    kept <+: candidates.foldl (keep entry) kept := by
  induction candidates generalizing kept with
  | nil => exact List.prefix_rfl
  | cons candidate candidates ih => exact (prefix_keep kept candidate).trans (ih _)

/-- Meeting further candidates drops none of those kept before. -/
theorem mem_survivors_append (hkept : candidate ∈ survivors entry before) :
    candidate ∈ survivors entry (before ++ after) := by
  rw [survivors, List.foldl_append]
  exact (prefix_foldl_keep _ after).subset hkept

theorem survivors_concat (before : List Candidate) (candidate : Candidate) :
    survivors entry (before ++ [candidate]) =
      keep entry (survivors entry before) candidate := by
  rw [survivors, List.foldl_append, List.foldl_cons, List.foldl_nil, ← survivors]

/-- A candidate that is neither suppressed nor comes under a shown name is kept for good. -/
theorem mem_survivors_of_new
    (hnew : ¬ Shows entry (survivors entry before) (candidate.displayName entry))
    (hpasses : ¬ Suppressed entry (survivors entry before) candidate) :
    candidate ∈ survivors entry (before ++ candidate :: after) := by
  rw [← List.singleton_append, ← List.append_assoc]
  refine mem_survivors_append ?_
  rw [survivors_concat, keep, if_neg (not_or.mpr ⟨hpasses, hnew⟩)]
  exact List.mem_concat_self

theorem mem_of_mem_survivors (hkept : candidate ∈ survivors entry candidates) :
    candidate ∈ candidates := by
  induction candidates using List.reverseRecOn with
  | nil => exact hkept
  | append_singleton candidates last ih =>
      rw [survivors_concat, keep] at hkept
      split_ifs at hkept
      · exact List.mem_append_left _ (ih hkept)
      · exact (List.mem_append.mp hkept).elim (fun hmem => List.mem_append_left _ (ih hmem))
          (List.mem_append_right _)

/-- The name of a candidate that is not suppressed is shown, by it or by an earlier one. -/
theorem shows_of_not_suppressed
    (hpasses : ¬ Suppressed entry (survivors entry before) candidate) :
    Shows entry (survivors entry (before ++ candidate :: after))
      (candidate.displayName entry) := by
  -- only an earlier candidate of the same name keeps it out
  by_cases hshown : Shows entry (survivors entry before) (candidate.displayName entry)
  · obtain ⟨earlier, hkept, hname⟩ := hshown
    exact ⟨earlier, mem_survivors_append hkept, hname⟩
  · exact ⟨candidate, mem_survivors_of_new hshown hpasses, rfl⟩

theorem shows_of_own (hmem : candidate ∈ candidates) (hown : candidate.ancestor? = none) :
    Shows entry (survivors entry candidates) (candidate.displayName entry) := by
  obtain ⟨before, after, rfl⟩ := List.append_of_mem hmem
  refine shows_of_not_suppressed fun hsuppressed => ?_
  have hinherited := hsuppressed.1
  rw [hown] at hinherited
  exact nomatch hinherited

/-! ## The map that resolution works on -/

/-- The map after meeting a candidate. -/
def meet (entry : ClassEntry) (properties : NameMap Property) (candidate : Candidate) :
    NameMap Property :=
  match candidate.ancestor? with
  | none => Catalogue.withOwn entry properties candidate.declared
  | some ancestor => Catalogue.withInherited entry ancestor properties candidate.declared

/-- The map holds the kept candidates, each under its name. -/
def Holds (entry : ClassEntry) (properties : NameMap Property) (kept : List Candidate) : Prop :=
  properties.entries.Perm (kept.map fun candidate =>
    (candidate.displayName entry, candidate.property entry))

variable {properties : NameMap Property}

theorem Holds.contains_iff (hholds : Holds entry properties kept) :
    properties.contains name = true ↔ Shows entry kept name := by
  rw [NameMap.contains_iff, Shows]
  constructor
  · rintro ⟨held, hheld, hname⟩
    obtain ⟨candidate, hkept, rfl⟩ := List.mem_map.mp (hholds.mem_iff.mp hheld)
    exact ⟨candidate, hkept, hname⟩
  · rintro ⟨candidate, hkept, hname⟩
    exact ⟨_, hholds.mem_iff.mpr (List.mem_map_of_mem hkept), hname⟩

/-- A candidate that is not suppressed is entered under its name, if that is new. -/
theorem meet_of_not_suppressed (hholds : Holds entry properties kept)
    (hpasses : ¬ Suppressed entry kept candidate) :
    meet entry properties candidate =
      properties.insertNew (candidate.displayName entry) (candidate.property entry) := by
  obtain ⟨ancestor?, declared⟩ := candidate
  cases ancestor? with
  | none => rfl
  | some ancestor =>
      refine if_neg fun hoverridden => hpasses ?_
      obtain ⟨hvirtual, hcontains⟩ := Bool.and_eq_true_iff.mp hoverridden
      exact ⟨rfl, hvirtual, hholds.contains_iff.mp hcontains⟩

theorem meet_of_suppressed (hholds : Holds entry properties kept)
    (hsuppressed : Suppressed entry kept candidate) :
    meet entry properties candidate = properties := by
  obtain ⟨ancestor?, declared⟩ := candidate
  obtain ⟨hinherited, hvirtual, hshown⟩ := hsuppressed
  cases ancestor? with
  | none => exact nomatch hinherited
  | some ancestor =>
      exact if_pos (Bool.and_eq_true_iff.mpr ⟨hvirtual, hholds.contains_iff.mpr hshown⟩)

theorem Holds.meet (hholds : Holds entry properties kept) (candidate : Candidate) :
    Holds entry (Candidate.meet entry properties candidate) (keep entry kept candidate) := by
  rw [keep]
  by_cases hsuppressed : Suppressed entry kept candidate
  · rw [if_pos (Or.inl hsuppressed), meet_of_suppressed hholds hsuppressed]
    exact hholds
  · rw [meet_of_not_suppressed hholds hsuppressed]
    by_cases hshown : Shows entry kept (candidate.displayName entry)
    · rw [if_pos (Or.inr hshown), Holds,
        NameMap.insertNew_of_contains _ (hholds.contains_iff.mpr hshown)]
      exact hholds
    · rw [if_neg (not_or.mpr ⟨hsuppressed, hshown⟩), Holds, List.map_append]
      have hnew : properties.contains (candidate.displayName entry) = false := by
        rwa [← Bool.not_eq_true, hholds.contains_iff]
      exact (NameMap.perm_insertNew _ hnew).trans
        ((hholds.cons _).trans (List.perm_append_singleton _ _).symm)

theorem holds_survivors (entry : ClassEntry) (candidates : List Candidate) :
    Holds entry (candidates.foldl (Candidate.meet entry) .empty)
      (survivors entry candidates) := by
  induction candidates using List.reverseRecOn with
  | nil => exact List.Perm.nil
  | append_singleton candidates last ih =>
      rw [List.foldl_append, survivors_concat]
      exact ih.meet last

end Candidate

namespace Catalogue

open Candidate

variable {catalogue : Catalogue} {entry : ClassEntry}

theorem filter_declared (entry : ClassEntry) :
    entry.declared.filter DeclaredProperty.isEligible = entry.declared :=
  List.filter_eq_self.mpr entry.eligible

/-- Resolution meets the candidates in order. -/
theorem propertyMap_eq_foldl_meet (entry : ClassEntry) (ancestors : List ClassEntry) :
    propertyMap entry ancestors = (Candidate.all entry ancestors).foldl (meet entry) .empty := by
  have hhandedDown : ∀ ancestor properties,
      (handedDown ancestor).foldl (meet entry) properties =
        ancestor.declared.foldl (withInherited entry ancestor) properties := by
    intro ancestor properties
    rw [handedDown, filter_declared, List.foldl_map]
    rfl
  rw [propertyMap, Candidate.all, List.foldl_append, List.foldl_flatMap, own, filter_declared,
    List.foldl_map]
  simp only [hhandedDown]
  rfl

/-! ## The law of resolution -/

/-- The classes that the walk from a class visits, nearest first. -/
def visited (catalogue : Catalogue) (entry : ClassEntry) : List ClassEntry :=
  (List.range maxHops).filterMap fun steps => catalogue.visitedAfter steps entry.superSimpleName

/-- The candidates of a class in the order in which they are met. -/
def candidates (catalogue : Catalogue) (entry : ClassEntry) : List Candidate :=
  Candidate.all entry (catalogue.visited entry)

theorem values_propertyMap_perm (entry : ClassEntry) (ancestors : List ClassEntry) :
    (propertyMap entry ancestors).values.Perm
      ((survivors entry (Candidate.all entry ancestors)).map (Candidate.property entry)) := by
  rw [propertyMap_eq_foldl_meet]
  have hheld := (holds_survivors entry (Candidate.all entry ancestors)).map Prod.snd
  rwa [List.map_map] at hheld

theorem ascendingBy_values_propertyMap (entry : ClassEntry) (ancestors : List ClassEntry) :
    AscendingBy Property.displayName (propertyMap entry ancestors).values := by
  refine List.pairwise_map.mpr ((propertyMap entry ancestors).ascending.imp_of_mem ?_)
  have hname : ∀ held ∈ (propertyMap entry ancestors).entries, held.2.displayName = held.1 := by
    intro held hmem
    rw [propertyMap_eq_foldl_meet] at hmem
    obtain ⟨candidate, -, rfl⟩ := List.mem_map.mp ((holds_survivors _ _).mem_iff.mp hmem)
    rfl
  intro earlier later hearlier hlater hlt
  rwa [hname _ hearlier, hname _ hlater]

theorem visited_eq_ancestors (catalogue : Catalogue) (entry : ClassEntry) :
    catalogue.visited entry = catalogue.ancestors entry :=
  ancestorsFrom_eq_filterMap.symm

theorem resolve_perm_survivors (catalogue : Catalogue) (entry : ClassEntry) :
    (catalogue.resolve entry).Perm
      ((survivors entry (catalogue.candidates entry)).map (Candidate.property entry)) := by
  rw [resolve, ← visited_eq_ancestors]
  exact values_propertyMap_perm entry (catalogue.visited entry)

/-- The first property that a class declares under a name is shown there, and nothing else is. -/
theorem mem_resolve_own_iff {name : String} {first : DeclaredProperty}
    (hfirst : (entry.declared.filter DeclaredProperty.isEligible).find? (fun declared =>
      declared.name == name) = some first) (property : Property) :
    property ∈ catalogue.resolve entry ∧ property.displayName = name ↔
      property = Candidate.property entry ⟨none, first⟩ := by
  obtain ⟨hname, earlier, later, hdeclared, hearlier⟩ := List.find?_eq_some_iff_append.mp hfirst
  obtain rfl : first.name = name := beq_iff_eq.mp hname
  have hmem : Candidate.property entry ⟨none, first⟩ ∈ catalogue.resolve entry := by
    refine (resolve_perm_survivors catalogue entry).mem_iff.mpr (List.mem_map_of_mem ?_)
    rw [candidates, Candidate.all, own, hdeclared, List.map_append, List.map_cons,
      List.append_assoc, List.cons_append]
    refine mem_survivors_of_new ?_ nofun
    -- the candidates met before are own ones under other names
    rintro ⟨candidate, hsurvives, hshown⟩
    obtain ⟨other, hother, rfl⟩ := List.mem_map.mp (mem_of_mem_survivors hsurvives)
    have hdiffers := hearlier other hother
    rw [Bool.not_eq_true', beq_eq_false_iff_ne] at hdiffers
    exact hdiffers hshown
  constructor
  · rintro ⟨hproperty, hshown⟩
    exact (ascendingBy_values_propertyMap _ _).eq_of_name_eq hproperty hmem hshown
  · rintro rfl
    exact ⟨hmem, rfl⟩

/-! ## Overriding -/

/-- A decorated name holds two colons. -/
theorem colons_infix_decorate (entry ancestor : ClassEntry) (name : String) :
    "::".toList <:+: (decorate entry ancestor name).toList := by
  rw [decorate, String.toList_append, String.toList_append]
  exact List.infix_append _ _ _

/-- What is met before an inherited candidate holds the own candidates. -/
theorem own_subset_of_inherited {before after : List Candidate} {candidate : Candidate}
    (hsplit : catalogue.candidates entry = before ++ candidate :: after)
    (hinherited : candidate.ancestor?.isSome = true) : own entry ⊆ before := by
  have hown : candidate ∉ own entry := by
    intro hmem
    rw [ancestor?_of_mem_own hmem] at hinherited
    exact nomatch hinherited
  -- the list is cut behind the own candidates or among them
  rcases List.append_eq_append_iff.mp hsplit with ⟨further, rfl, -⟩ | ⟨rest, hownSplit, hrest⟩
  · exact List.subset_append_left _ _
  · cases rest with
    | nil => rw [hownSplit, List.append_nil]; exact List.Subset.refl _
    | cons first rest =>
        obtain rfl : candidate = first := (List.cons.inj hrest).1
        exact absurd (hownSplit ▸ List.mem_append_right _ List.mem_cons_self) hown

/-- Unless the plain name of an inherited property holds two colons, only an own
property can override it. -/
theorem suppressed_iff_own {before after : List Candidate} {candidate : Candidate}
    (hsplit : catalogue.candidates entry = before ++ candidate :: after)
    (hinherited : candidate.ancestor?.isSome = true)
    (hplain : ¬ "::".toList <:+: candidate.declared.name.toList) :
    Suppressed entry (survivors entry before) candidate ↔
      candidate.declared.getterIsVirtual = true ∧
        ∃ declared ∈ entry.declared.filter DeclaredProperty.isEligible,
          declared.name = candidate.declared.name := by
  constructor
  · rintro ⟨-, hvirtual, shown, hsurvives, hname⟩
    refine ⟨hvirtual, ?_⟩
    have hcandidate : shown ∈ catalogue.candidates entry := by
      rw [hsplit]
      exact List.mem_append_left _ (mem_of_mem_survivors hsurvives)
    -- what is shown under a name without two colons is the class's own
    cases hancestor : shown.ancestor? with
    | some ancestor =>
        rw [displayName, hancestor] at hname
        exact absurd (hname ▸ colons_infix_decorate entry ancestor shown.declared.name) hplain
    | none =>
        obtain ⟨declared, hdeclared, rfl⟩ :=
          List.mem_map.mp (mem_own_of_mem_all hcandidate hancestor)
        exact ⟨declared, hdeclared, hname⟩
  · rintro ⟨hvirtual, declared, hdeclared, hname⟩
    have hown : (⟨none, declared⟩ : Candidate) ∈ own entry := List.mem_map_of_mem hdeclared
    refine ⟨hinherited, hvirtual, ?_⟩
    rw [← hname]
    exact shows_of_own (own_subset_of_inherited hsplit hinherited hown) rfl

/-- **Main statement.**  Resolution shows the surviving candidates, each name once
and in ascending order.  Under each own name it shows the first property that the
class itself declares under it.  Where no plain name holds two colons, an ancestor's
property is suppressed exactly if its getter is virtual and the class declares a
property of that name. -/
theorem resolve_shows_survivors (catalogue : Catalogue) (entry : ClassEntry) :
    ((catalogue.resolve entry).Pairwise fun earlier later =>
      BytesBefore earlier.displayName later.displayName) ∧
    (catalogue.resolve entry).Perm
      ((survivors entry (catalogue.candidates entry)).map (Candidate.property entry)) ∧
    (∀ name first, (entry.declared.filter DeclaredProperty.isEligible).find? (fun declared =>
        declared.name == name) = some first →
      ∀ property, property ∈ catalogue.resolve entry ∧ property.displayName = name ↔
        property = Candidate.property entry ⟨none, first⟩) ∧
    ∀ before candidate after, catalogue.candidates entry = before ++ candidate :: after →
      candidate.ancestor?.isSome = true → ¬ "::".toList <:+: candidate.declared.name.toList →
        (Suppressed entry (survivors entry before) candidate ↔
          candidate.declared.getterIsVirtual = true ∧
            ∃ declared ∈ entry.declared.filter DeclaredProperty.isEligible,
              declared.name = candidate.declared.name) := by
  refine ⟨?_, resolve_perm_survivors catalogue entry, fun name first hfirst =>
    mem_resolve_own_iff hfirst, fun before candidate after hsplit hinherited hplain =>
    suppressed_iff_own hsplit hinherited hplain⟩
  have hascending : AscendingBy Property.displayName (catalogue.resolve entry) :=
    ascendingBy_values_propertyMap entry (catalogue.ancestors entry)
  exact hascending.imp fun hlt => (bytesBefore_iff_lt _ _).mpr hlt

end Catalogue

end ActivityCatalogue
