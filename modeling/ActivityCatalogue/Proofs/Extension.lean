import ActivityCatalogue.Proofs.Ancestry

/-!
# Walks in two catalogues

Registering a class leaves everything that is found already as it was, and it leaves
the roots (`extends_register`).  That alone says much about the walks of the larger
catalogue:

* a walk goes through the classes through which it went before, and if it stopped at a
  name without a class, it may go on there (`Extends.isPrefix_ancestorsFrom`);
* a walk that came to a root comes to that root still (`Extends.endsAtRoot`).

Whatever the relation of two catalogues, walks in them are the same if they go on alike
from every name to which one of them comes (`walks_eq`).  So a difference has to begin
at one of these names.
-/

namespace ActivityCatalogue

namespace Catalogue

variable {catalogue later latest : Catalogue} {name : String} {entry ancestor : ClassEntry}
  {steps hops : Nat}

/-- The later catalogue has the same roots and finds every class that the other one finds. -/
structure Extends (later catalogue : Catalogue) : Prop where
  isRoot_eq : ∀ name, later.isRoot name = catalogue.isRoot name
  find?_of_some : ∀ {name entry}, catalogue.find? name = some entry →
    later.find? name = some entry

namespace Extends

theorem refl (catalogue : Catalogue) : catalogue.Extends catalogue where
  isRoot_eq := fun _ => rfl
  find?_of_some := id

theorem trans (hlatest : latest.Extends later) (hlater : later.Extends catalogue) :
    latest.Extends catalogue where
  isRoot_eq := fun name => (hlatest.isRoot_eq name).trans (hlater.isRoot_eq name)
  find?_of_some := fun hfound => hlatest.find?_of_some (hlater.find?_of_some hfound)

theorem mem_entries (hextends : later.Extends catalogue) (hentry : entry ∈ catalogue.entries) :
    entry ∈ later.entries := by
  have hfound : catalogue.find? entry.simpleName = some entry :=
    find?_eq_some_iff.mpr ⟨hentry, rfl⟩
  exact mem_entries_of_find? (hextends.find?_of_some hfound)

/-! ## Walks go on as before -/

theorem onward?_of_some (hextends : later.Extends catalogue)
    (honward : catalogue.onward? name = some ancestor) : later.onward? name = some ancestor := by
  rw [onward?] at honward ⊢
  rw [hextends.isRoot_eq]
  split_ifs at honward ⊢
  exact hextends.find?_of_some honward

/-- In the larger catalogue a walk may be longer, but what was visited stays. -/
theorem isPrefix_ancestorsFrom (hextends : later.Extends catalogue) :
    catalogue.ancestorsFrom hops name <+: later.ancestorsFrom hops name := by
  induction hops generalizing name with
  | zero => exact List.prefix_rfl
  | succ hops ih =>
      -- where the walk stopped before, it may go on now
      cases honward : catalogue.onward? name with
      | none =>
          rw [ancestorsFrom_of_stop honward]
          exact List.nil_prefix
      | some ancestor =>
          rw [ancestorsFrom_succ honward, ancestorsFrom_succ (hextends.onward?_of_some honward)]
          exact (List.prefix_cons_inj ancestor).mpr ih

theorem nameAfter_of_some (hextends : later.Extends catalogue) {place : String}
    (hplace : catalogue.nameAfter steps name = some place) :
    later.nameAfter steps name = some place := by
  induction steps generalizing name with
  | zero => exact hplace
  | succ steps ih =>
      cases honward : catalogue.onward? name with
      | none =>
          rw [nameAfter_succ_of_stop honward] at hplace
          exact nomatch hplace
      | some ancestor =>
          rw [nameAfter_succ honward] at hplace
          rw [nameAfter_succ (hextends.onward?_of_some honward)]
          exact ih hplace

theorem endsAtRoot (hextends : later.Extends catalogue)
    (hends : catalogue.EndsAtRoot steps name) : later.EndsAtRoot steps name := by
  obtain ⟨root, hstand, hnonempty, hroot⟩ := hends
  refine ⟨root, hextends.nameAfter_of_some hstand, hnonempty, ?_⟩
  rw [hextends.isRoot_eq, hroot]

/-- What is an activity stays one. -/
theorem isActivity (hextends : later.Extends catalogue)
    (hactivity : catalogue.isActivity entry = true) : later.isActivity entry = true := by
  obtain ⟨steps, hsteps, hends⟩ := isActivity_iff.mp hactivity
  exact isActivity_iff.mpr ⟨steps, hsteps, hextends.endsAtRoot hends⟩

end Extends

/-! ## Walks that are alike -/

/-- Two walks that go on through the same classes from every name to which the first one
comes are the same, and come to a root alike.  The classes may have been changed, but not
their base names. -/
theorem walks_eq {change : ClassEntry → ClassEntry}
    (hsuper : ∀ entry, (change entry).superSimpleName = entry.superSimpleName)
    (hroots : ∀ name, later.isRoot name = catalogue.isRoot name)
    (honward : ∀ steps < hops, ∀ place, catalogue.nameAfter steps name = some place →
      later.onward? place = (catalogue.onward? place).map change) :
    later.ancestorsFrom hops name = (catalogue.ancestorsFrom hops name).map change ∧
      later.reachesRoot hops name = catalogue.reachesRoot hops name := by
  induction hops generalizing name with
  | zero => exact ⟨rfl, rfl⟩
  | succ hops ih =>
      have hhere : later.onward? name = (catalogue.onward? name).map change :=
        honward 0 (Nat.succ_pos hops) name rfl
      cases hnext : catalogue.onward? name with
      | none =>
          rw [hnext, Option.map_none] at hhere
          refine ⟨?_, ?_⟩
          · rw [ancestorsFrom_of_stop hnext, ancestorsFrom_of_stop hhere, List.map_nil]
          · rw [Bool.eq_iff_iff, reachesRoot_succ_iff, reachesRoot_succ_iff, hroots, hhere, hnext]
            simp
      | some ancestor =>
          rw [hnext, Option.map_some] at hhere
          -- the rest of the walk begins at the base name of the same class
          have hfurther : ∀ steps < hops, ∀ place,
              catalogue.nameAfter steps ancestor.superSimpleName = some place →
                later.onward? place = (catalogue.onward? place).map change := by
            intro steps hsteps place hplace
            apply honward (steps + 1) (Nat.succ_lt_succ hsteps) place
            rw [nameAfter_succ hnext, hplace]
          obtain ⟨hvisited, hreaches⟩ := ih hfurther
          refine ⟨?_, ?_⟩
          · rw [ancestorsFrom_succ hnext, ancestorsFrom_succ hhere, hsuper, hvisited,
              List.map_cons]
          · rw [Bool.eq_iff_iff, reachesRoot_succ_iff, reachesRoot_succ_iff, hroots, hhere, hnext]
            simp [hsuper, hreaches]

/-! ## Registering a class -/

theorem extends_register (catalogue : Catalogue) (package : String)
    (declaration : ClassDeclaration) :
    (catalogue.register package declaration).Extends catalogue := by
  rw [register]
  split
  · exact Extends.refl catalogue
  · exact ⟨fun _ => rfl, fun hfound => NameMap.find?_insertNew_of_some _ hfound⟩

end Catalogue

end ActivityCatalogue
