import ActivityCatalogue.Catalogue.Resolution
import ActivityCatalogue.Proofs.Alignment
import ActivityCatalogue.Proofs.NameMap

/-!
# Registered classes

Every class is registered under its own simple name, so looking up a name finds
exactly the registered class that bears it, and listing the classes lists them in
ascending order of their simple names.
-/

namespace ActivityCatalogue

namespace Catalogue

variable {catalogue : Catalogue} {name : String} {entry : ClassEntry}

theorem find?_eq_some_iff :
    catalogue.find? name = some entry ↔ entry ∈ catalogue.entries ∧ entry.simpleName = name := by
  have hmap : catalogue.find? name = some entry ↔ (name, entry) ∈ catalogue.classes.entries :=
    NameMap.find?_eq_some_iff
  rw [hmap]
  constructor
  · intro hmem
    exact ⟨List.mem_map.mpr ⟨(name, entry), hmem, rfl⟩, catalogue.named _ hmem⟩
  · rintro ⟨hentry, rfl⟩
    obtain ⟨⟨key, registered⟩, hmem, rfl⟩ := List.mem_map.mp hentry
    have hname : registered.simpleName = key := catalogue.named _ hmem
    exact hname ▸ hmem

theorem simpleName_of_find? (hfound : catalogue.find? name = some entry) :
    entry.simpleName = name :=
  (find?_eq_some_iff.mp hfound).2

theorem mem_entries_of_find? (hfound : catalogue.find? name = some entry) :
    entry ∈ catalogue.entries :=
  (find?_eq_some_iff.mp hfound).1

theorem ascendingBy_entries (catalogue : Catalogue) :
    AscendingBy ClassEntry.simpleName catalogue.entries := by
  refine List.pairwise_map.mpr (catalogue.classes.ascending.imp_of_mem ?_)
  intro earlier later hearlier hlater hlt
  rwa [catalogue.named _ hearlier, catalogue.named _ hlater]

/-! ## Accessible classes -/

/-- The accessible class of a name, if the catalogue has one. -/
def shown? (catalogue : Catalogue) (name : String) : Option ClassEntry :=
  (catalogue.find? name).filter catalogue.isAccessible

theorem shown?_eq_some_iff :
    catalogue.shown? name = some entry ↔
      entry ∈ catalogue.accessible ∧ entry.simpleName = name := by
  rw [shown?, Option.filter_eq_some_iff, find?_eq_some_iff, accessible, List.mem_filter]
  tauto

theorem ascendingBy_accessible (catalogue : Catalogue) :
    AscendingBy ClassEntry.simpleName catalogue.accessible :=
  (ascendingBy_entries catalogue).filter _

end Catalogue

end ActivityCatalogue
