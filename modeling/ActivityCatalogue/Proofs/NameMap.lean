import Mathlib
import ActivityCatalogue.NameMap

/-!
# What a map from names holds

Names ascend strictly, so an entry is found under a name exactly if the map
holds it (`find?_eq_some_iff`).  Entering a value under a new name adds that one
entry and nothing else (`perm_insertNew`); under a taken name it changes nothing
(`insertNew_of_contains`).
-/

namespace ActivityCatalogue

variable {α β : Type}

/-! ## Lists of entries -/

theorem lookup_eq_some_iff_mem {entries : List (String × α)} (hentries : Ascending entries)
    {name : String} {value : α} :
    entries.lookup name = some value ↔ (name, value) ∈ entries := by
  induction entries with
  | nil => simp
  | cons head rest ih =>
      obtain ⟨other, kept⟩ := head
      have hrest := List.pairwise_cons.mp hentries
      rw [List.lookup_cons, List.mem_cons, Prod.mk.injEq]
      by_cases heq : name = other
      · subst heq
        have habsent : (name, value) ∉ rest := fun hmem => lt_irrefl name (hrest.1 _ hmem)
        simp [habsent, eq_comm]
      · rw [beq_eq_false_iff_ne.mpr heq]
        simpa [heq] using ih hrest.2

theorem perm_enter {name : String} (value : α) {entries : List (String × α)}
    (hnew : ∀ entry ∈ entries, entry.1 ≠ name) :
    (enter name value entries).Perm ((name, value) :: entries) := by
  induction entries with
  | nil => exact List.Perm.refl _
  | cons head rest ih =>
      obtain ⟨other, kept⟩ := head
      have hne : name ≠ other := (hnew _ List.mem_cons_self).symm
      unfold enter
      rw [if_neg hne]
      split_ifs with hlt
      · exact List.Perm.refl _
      · have hrest := ih fun entry hentry => hnew entry (List.mem_cons_of_mem _ hentry)
        exact (hrest.cons _).trans (List.Perm.swap _ _ _)

theorem enter_of_mem {name : String} (value : α) {entries : List (String × α)}
    (hentries : Ascending entries) (htaken : ∃ entry ∈ entries, entry.1 = name) :
    enter name value entries = entries := by
  induction entries with
  | nil => obtain ⟨entry, hmem, -⟩ := htaken; exact nomatch hmem
  | cons head rest ih =>
      obtain ⟨other, kept⟩ := head
      obtain ⟨entry, hmem, hname⟩ := htaken
      have hrest := List.pairwise_cons.mp hentries
      unfold enter
      rcases List.mem_cons.mp hmem with rfl | hmem
      · rw [if_neg (hname ▸ lt_irrefl _), if_pos hname.symm]
      · have hlt : other < name := hname ▸ hrest.1 entry hmem
        rw [if_neg hlt.asymm, if_neg hlt.ne', ih hrest.2 ⟨entry, hmem, hname⟩]

namespace NameMap

variable {map : NameMap α} {name other : String}

/-! ## Looking up -/

theorem find?_eq_some_iff {value : α} : map.find? name = some value ↔ (name, value) ∈ map.entries :=
  lookup_eq_some_iff_mem map.ascending

theorem contains_iff : map.contains name = true ↔ ∃ entry ∈ map.entries, entry.1 = name := by
  rw [contains, Option.isSome_iff_exists]
  constructor
  · rintro ⟨value, hfound⟩
    exact ⟨(name, value), find?_eq_some_iff.mp hfound, rfl⟩
  · rintro ⟨⟨_, value⟩, hmem, rfl⟩
    exact ⟨value, find?_eq_some_iff.mpr hmem⟩

theorem mem_names_iff : name ∈ map.names ↔ map.contains name = true := by
  rw [contains_iff, names, List.mem_map]

/-- A map is determined by what is found in it. -/
theorem eq_of_find?_eq {first second : NameMap α}
    (hfind : ∀ name, first.find? name = second.find? name) : first = second := by
  have hnodup : ∀ map : NameMap α, map.entries.Nodup := fun map =>
    map.ascending.imp fun hlt heq => hlt.ne (congrArg Prod.fst heq)
  have hperm : first.entries.Perm second.entries := by
    rw [List.perm_ext_iff_of_nodup (hnodup first) (hnodup second)]
    rintro ⟨name, value⟩
    rw [← find?_eq_some_iff, hfind, find?_eq_some_iff]
  obtain ⟨entries, hascending⟩ := first
  obtain ⟨others, hothers⟩ := second
  have hentries : entries = others :=
    hperm.eq_of_pairwise (fun _ _ _ _ hlt hgt => absurd hlt hgt.asymm) hascending hothers
  subst hentries
  rfl

/-! ## Entering -/

theorem insertNew_of_contains (value : α) (htaken : map.contains name = true) :
    (map.insertNew name value).entries = map.entries :=
  enter_of_mem value map.ascending (contains_iff.mp htaken)

theorem perm_insertNew (value : α) (hnew : map.contains name = false) :
    (map.insertNew name value).entries.Perm ((name, value) :: map.entries) := by
  refine perm_enter value fun entry hentry heq => ?_
  rw [contains_iff.mpr ⟨entry, hentry, heq⟩] at hnew
  exact nomatch hnew

/-- What is found after entering a value: what was found before, else the value
under its name. -/
theorem find?_insertNew (value : α) :
    (map.insertNew name value).find? other =
      (map.find? other).or (if name = other then some value else none) := by
  cases htaken : map.contains name with
  | true =>
      have hsame : (map.insertNew name value).find? other = map.find? other := by
        simp only [find?, insertNew_of_contains value htaken]
      rw [hsame]
      split
      · next heq =>
          obtain ⟨kept, hkept⟩ := Option.isSome_iff_exists.mp htaken
          rw [← heq, hkept, Option.some_or]
      · rw [Option.or_none]
  | false =>
      refine Option.ext fun found => ?_
      rw [find?_eq_some_iff, (perm_insertNew value htaken).mem_iff, List.mem_cons,
        ← find?_eq_some_iff, Option.or_eq_some_iff, Prod.mk.injEq]
      by_cases heq : name = other
      · subst heq
        have hnone : map.find? name = none := by simpa [contains] using htaken
        simp [hnone, eq_comm]
      · simp [heq, Ne.symm heq]

/-- What was found before is found after entering another value. -/
theorem find?_insertNew_of_some (value : α) {kept : α}
    (hfound : map.find? other = some kept) :
    (map.insertNew name value).find? other = some kept := by
  rw [find?_insertNew, hfound, Option.some_or]

theorem contains_insertNew (value : α) :
    (map.insertNew name value).contains other = true ↔
      map.contains other = true ∨ other = name := by
  cases hname : map.contains name with
  | true =>
      rw [contains_iff, insertNew_of_contains value hname, ← contains_iff]
      refine ⟨Or.inl, fun htaken => htaken.elim id ?_⟩
      rintro rfl
      exact hname
  | false =>
      simp only [contains_iff, (perm_insertNew value hname).mem_iff, List.exists_mem_cons_iff]
      rw [or_comm, eq_comm]

/-! ## Changing all values -/

theorem find?_mapValues (map : NameMap α) (name : String) (change : String → α → β) :
    (map.mapValues change).find? name = (map.find? name).map (change name) := by
  refine Option.ext fun value => ?_
  rw [find?_eq_some_iff, Option.map_eq_some_iff]
  simp only [mapValues, List.mem_map, find?_eq_some_iff, Prod.mk.injEq]
  constructor
  · rintro ⟨⟨_, kept⟩, hmem, rfl, rfl⟩
    exact ⟨kept, hmem, rfl⟩
  · rintro ⟨kept, hmem, rfl⟩
    exact ⟨(name, kept), hmem, rfl, rfl⟩

end NameMap

/-! ## Sets of names -/

namespace NameSet

theorem contains_foldl_insert {names : List String} {set : NameSet} {name : String} :
    NameMap.contains (names.foldl insert set) name = true ↔
      set.contains name = true ∨ name ∈ names := by
  induction names generalizing set with
  | nil => simp
  | cons first names ih => rw [List.foldl_cons, ih, insert, NameMap.contains_insertNew,
      List.mem_cons, or_assoc]

/-- The set made from a list holds exactly the names of the list. -/
theorem contains_ofList {names : List String} {name : String} :
    (ofList names).contains name = true ↔ name ∈ names := by
  rw [ofList, contains_foldl_insert]
  exact or_iff_right nofun

end NameSet

end ActivityCatalogue
