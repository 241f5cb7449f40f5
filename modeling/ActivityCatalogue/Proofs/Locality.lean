import ActivityCatalogue.Proofs.BaseNames
import ActivityCatalogue.Proofs.Extension
import ActivityCatalogue.Proofs.Filling
import ActivityCatalogue.Proofs.Resolution

/-!
# What further classes change

Filling a catalogue further extends it (`extends_fill`), so the walk from a class goes
through the ancestors through which it went before, and then perhaps through others.
The candidates of the class are those from before, and further ones behind them.  They
come too late to displace or to suppress anything, so all that the class showed it shows
still (`Extends.mem_resolve`).

One class that is registered is found under one name.  Walks that do not wait at that
name (`Awaits`) go on as before, and nothing changes for their classes
(`eq_of_not_awaits`).
-/

namespace ActivityCatalogue

namespace Catalogue

variable {catalogue later : Catalogue} {entry : ClassEntry} {name package : String}
  {declaration : ClassDeclaration}

/-! ## What stays -/

theorem extends_fill (catalogue : Catalogue) (calls : List Filling) :
    (calls.foldl Filling.fill catalogue).Extends catalogue := by
  have htake : ∀ (offers : List Offer) (catalogue : Catalogue),
      (offers.foldl take catalogue).Extends catalogue := by
    intro offers
    induction offers with
    | nil => exact Extends.refl
    | cons offer rest ih =>
        intro catalogue
        exact (ih (catalogue.take offer)).trans
          (extends_register catalogue offer.package offer.declaration)
  rw [foldl_fill]
  exact htake _ catalogue

/-- A class shows whatever it showed before the catalogue was extended. -/
theorem Extends.mem_resolve (hextends : later.Extends catalogue) {property : Property}
    (hproperty : property ∈ catalogue.resolve entry) : property ∈ later.resolve entry := by
  obtain ⟨further, hfurther⟩ : catalogue.ancestors entry <+: later.ancestors entry :=
    hextends.isPrefix_ancestorsFrom
  have hcandidates : Candidate.all entry (later.ancestors entry) =
      Candidate.all entry (catalogue.ancestors entry) ++ further.flatMap Candidate.handedDown := by
    rw [← hfurther, Candidate.all, Candidate.all, List.flatMap_append, List.append_assoc]
  rw [resolve, (values_propertyMap_perm _ _).mem_iff] at hproperty
  obtain ⟨candidate, hsurvives, rfl⟩ := List.mem_map.mp hproperty
  rw [resolve, (values_propertyMap_perm _ _).mem_iff]
  apply List.mem_map_of_mem
  rw [hcandidates]
  exact Candidate.mem_survivors_append hsurvives

/-! ## What may change -/

/-- The walk from a class comes, within its hops, to a name for which there is no class,
and would go on from there if there was one. -/
def Awaits (catalogue : Catalogue) (entry : ClassEntry) (name : String) : Prop :=
  ∃ step < maxHops, (∀ earlier < step, catalogue.Passes entry earlier) ∧
    catalogue.baseName? entry step = some name ∧ name ≠ "" ∧ catalogue.isRoot name = false ∧
      catalogue.find? name = none

theorem find?_eq_none_of_inserted (hinserted : catalogue.registration declaration = .inserted) :
    catalogue.find? (simpleName declaration.fullName) = none := by
  cases hfound : catalogue.find? (simpleName declaration.fullName) with
  | none => rfl
  | some existing =>
      rw [registration, hfound] at hinserted
      exact Registration.noConfusion hinserted

/-- Registering a class changes what is found under its own name only. -/
theorem find?_register_of_ne (hne : simpleName declaration.fullName ≠ name) :
    (catalogue.register package declaration).find? name = catalogue.find? name := by
  have htake : (catalogue.register package declaration).find? name = _ :=
    find?_take catalogue ⟨package, declaration⟩ name
  rw [htake, Offer.simpleName, if_neg hne, Option.or_none]

/-- A class whose walk does not wait for the new class is left as it was. -/
theorem eq_of_not_awaits (hinserted : catalogue.registration declaration = .inserted)
    (hnot : ¬ catalogue.Awaits entry (simpleName declaration.fullName)) :
    (catalogue.register package declaration).isActivity entry = catalogue.isActivity entry ∧
      (catalogue.register package declaration).resolve entry = catalogue.resolve entry := by
  have hextends := extends_register catalogue package declaration
  have honward : ∀ step < maxHops, ∀ place,
      catalogue.nameAfter step entry.superSimpleName = some place →
        (catalogue.register package declaration).onward? place =
          (catalogue.onward? place).map id := by
    intro step hstep place hplace
    rw [Option.map_id_apply, onward?, onward?, hextends.isRoot_eq]
    by_cases hends : (place.isEmpty || catalogue.isRoot place) = true
    · rw [if_pos hends, if_pos hends]
    · rw [if_neg hends, if_neg hends]
      -- a walk that came to the new name and did not stop there would wait for it
      apply find?_register_of_ne
      rintro rfl
      obtain ⟨hbase, hearlier⟩ := nameAfter_eq_some_iff.mp hplace
      rw [Bool.or_eq_true, not_or, Bool.not_eq_true, Bool.not_eq_true] at hends
      exact hnot ⟨step, hstep, hearlier, hbase, String.isEmpty_eq_false_iff.mp hends.1, hends.2,
        find?_eq_none_of_inserted hinserted⟩
  obtain ⟨hancestors, hreaches⟩ := walks_eq (fun _ => rfl) hextends.isRoot_eq honward
  rw [List.map_id'] at hancestors
  refine ⟨hreaches, ?_⟩
  rw [resolve, ancestors, hancestors, resolve, ancestors]

/-- **Main statement.**  However a catalogue is filled further, each of its classes is
still in it; it is an activity if it was one, and shows whatever it showed.  A single new
class makes a difference only for classes whose walks stopped at its name, for want of a
class there.  A duplicate makes none at all. -/
theorem resolution_grows_locally (catalogue : Catalogue) :
    (∀ calls : List Filling, ∀ entry ∈ catalogue.entries,
      entry ∈ (calls.foldl Filling.fill catalogue).entries ∧
      (catalogue.isActivity entry = true →
        (calls.foldl Filling.fill catalogue).isActivity entry = true) ∧
      ∀ property ∈ catalogue.resolve entry,
        property ∈ (calls.foldl Filling.fill catalogue).resolve entry) ∧
    (∀ package declaration, catalogue.registration declaration = .inserted →
      ∀ entry ∈ catalogue.entries,
        (catalogue.register package declaration).isActivity entry ≠ catalogue.isActivity entry ∨
          (catalogue.register package declaration).resolve entry ≠ catalogue.resolve entry →
        catalogue.Awaits entry (simpleName declaration.fullName)) ∧
    ∀ package declaration firstPackage,
      catalogue.registration declaration = .duplicate firstPackage →
        catalogue.register package declaration = catalogue := by
  refine ⟨?_, ?_, ?_⟩
  · intro calls entry hentry
    have hextends := extends_fill catalogue calls
    exact ⟨hextends.mem_entries hentry, hextends.isActivity, fun property => hextends.mem_resolve⟩
  · intro package declaration hinserted entry hentry hchanges
    by_contra hnot
    obtain ⟨hactivity, hresolve⟩ := eq_of_not_awaits hinserted hnot
    rcases hchanges with hother | hother
    · exact hother hactivity
    · exact hother hresolve
  · intro package declaration firstPackage hduplicate
    rw [register, hduplicate]

/-- A class whose base class is not registered yet. -/
def orphaned : Catalogue :=
  (Catalogue.empty (.ofList ["Root"])).register "App"
    { fullName := "Leaf", baseTypeFullName := "Base",
      properties := [{ name := "Size", typeFullName := "Int32" }] }

/-- The base class, below the root. -/
def missingBase : ClassDeclaration :=
  { fullName := "Base", baseTypeFullName := "Root",
    properties := [{ name := "Speed", typeFullName := "Int32" }] }

/-- The class becomes an activity when its base class comes, for which it waited, and
shows its own property as before. -/
theorem orphaned_awaits_base :
    ∃ entry ∈ orphaned.entries, orphaned.isActivity entry = false ∧
      (orphaned.register "App" missingBase).isActivity entry = true ∧
      orphaned.Awaits entry (simpleName missingBase.fullName) ∧
      ∀ property ∈ orphaned.resolve entry,
        property ∈ (orphaned.register "App" missingBase).resolve entry := by
  obtain ⟨hstays, hawaits, -⟩ := resolution_grows_locally orphaned
  have hinserted : orphaned.registration missingBase = .inserted := by decide +kernel
  obtain ⟨entry, hentry, hbefore, hbehind⟩ : ∃ entry ∈ orphaned.entries,
      orphaned.isActivity entry = false ∧
        (orphaned.register "App" missingBase).isActivity entry = true := by
    decide +kernel
  refine ⟨entry, hentry, hbefore, hbehind, ?_, ?_⟩
  · apply hawaits "App" missingBase hinserted entry hentry
    left
    rw [hbefore, hbehind]
    exact Bool.noConfusion
  · exact (hstays [.register "App" missingBase] entry hentry).2.2

end Catalogue

end ActivityCatalogue
