import ActivityCatalogue.Catalogue.Population
import ActivityCatalogue.Proofs.Extension
import ActivityCatalogue.Proofs.Resolution

/-!
# Catalogues over time

A catalogue comes about by registering classes and by asking for the properties
of classes, in any order (`Reachable`).  A class settles on its properties when
they are first asked for, and classes registered later may lengthen its walk.
They cannot turn it: what it visited before it visits still, and first.  So the
properties of a class are at any time those resolved along the nearest part of
its walk (`SettledOnTheWay.properties_eq`), and for an activity that walk visits
distinct classes, none of them the activity itself.
-/

namespace ActivityCatalogue

namespace Catalogue

variable {catalogue : Catalogue} {entry ancestor : ClassEntry} {name : String} {hops : Nat}

/-- The catalogues that come about by registering classes and asking for properties. -/
inductive Reachable : Catalogue → Prop
  | empty (roots : NameSet) : Reachable (.empty roots)
  | register {catalogue : Catalogue} (hreach : Reachable catalogue) (package : String)
      (declaration : ClassDeclaration) : Reachable (catalogue.register package declaration)
  | settle {catalogue : Catalogue} (hreach : Reachable catalogue) (asked : ClassEntry → Bool) :
      Reachable (catalogue.settle asked)

/-! ## Filling a catalogue -/

namespace Reachable

theorem registerClasses (hreach : catalogue.Reachable) (package : String)
    (declarations : List ClassDeclaration) :
    (catalogue.registerClasses package declarations).value.1.Reachable := by
  induction declarations generalizing catalogue with
  | nil => exact hreach
  | cons declaration rest ih => exact ih (hreach.register package declaration)

theorem registerModules (hreach : catalogue.Reachable) (modules : List ModuleDeclaration) :
    (catalogue.registerModules modules).value.1.Reachable := by
  induction modules generalizing catalogue with
  | nil => exact hreach
  | cons module rest ih => exact ih (hreach.registerClasses module.name module.classes)

/-- Filling a catalogue registers classes and does nothing else to it. -/
theorem populate (hreach : catalogue.Reachable) (provider : Provider) :
    (catalogue.populate provider).value.1.Reachable := by
  obtain ⟨origin, modules⟩ := provider
  cases modules with
  | error fault => exact hreach
  | ok modules => exact hreach.registerModules modules

end Reachable

/-! ## Registering a class -/

/-- A registered class was registered before, or it is the new one. -/
theorem mem_entries_register {package : String} {declaration : ClassDeclaration}
    (hentry : entry ∈ (catalogue.register package declaration).entries) :
    entry ∈ catalogue.entries ∨ entry = .ofDeclaration package declaration := by
  rw [register] at hentry
  split at hentry
  · exact Or.inl hentry
  · obtain ⟨registered, hregistered, rfl⟩ := List.mem_map.mp hentry
    rcases fst_mem_of_mem_enter hregistered with rfl | hold
    · exact Or.inr rfl
    · exact Or.inl (List.mem_map_of_mem hold)

/-! ## Settling on properties -/

/-- What a class becomes when the properties of certain classes are asked for. -/
def settling (catalogue : Catalogue) (asked : ClassEntry → Bool) (entry : ClassEntry) :
    ClassEntry :=
  if asked entry then catalogue.settleEntry entry else entry

variable {asked : ClassEntry → Bool}

theorem superSimpleName_settling :
    (catalogue.settling asked entry).superSimpleName = entry.superSimpleName := by
  rw [settling]
  split
  · rfl
  · rfl

theorem settled_settling {properties : List Property}
    (hsettled : (catalogue.settling asked entry).settled = some properties) :
    catalogue.properties entry = properties := by
  rw [settling] at hsettled
  split at hsettled
  · exact Option.some.inj hsettled
  · rw [Catalogue.properties, hsettled, Option.getD_some]

theorem entries_settle :
    (catalogue.settle asked).entries = catalogue.entries.map (catalogue.settling asked) := by
  show (catalogue.classes.entries.map fun registered =>
    (registered.1, catalogue.settling asked registered.2)).map Prod.snd = _
  rw [List.map_map, entries, NameMap.values, List.map_map]
  rfl

theorem onward?_settle :
    (catalogue.settle asked).onward? name =
      (catalogue.onward? name).map (catalogue.settling asked) := by
  have hfind : (catalogue.settle asked).find? name =
      (catalogue.find? name).map (catalogue.settling asked) :=
    NameMap.find?_mapValues catalogue.classes name _
  have hroot : (catalogue.settle asked).isRoot name = catalogue.isRoot name := rfl
  rw [onward?, onward?, hroot, hfind]
  split
  · rfl
  · rfl

/-- Asking for properties leaves every walk as it is. -/
theorem ancestorsFrom_settle :
    (catalogue.settle asked).ancestorsFrom hops name =
      (catalogue.ancestorsFrom hops name).map (catalogue.settling asked) := by
  have hsuper : ∀ entry, (catalogue.settling asked entry).superSimpleName =
      entry.superSimpleName := fun _ => superSimpleName_settling
  have hroots : ∀ name, (catalogue.settle asked).isRoot name = catalogue.isRoot name := fun _ => rfl
  exact (walks_eq hsuper hroots fun _ _ _ _ => onward?_settle).1

/-- What a class has settled on plays no part in resolution. -/
theorem propertyMap_settling (ancestors : List ClassEntry) :
    propertyMap (catalogue.settling asked entry) (ancestors.map (catalogue.settling asked)) =
      propertyMap entry ancestors := by
  have hown : (catalogue.settling asked entry).declared.foldl
      (withOwn (catalogue.settling asked entry)) .empty =
        entry.declared.foldl (withOwn entry) .empty := by
    rw [settling]
    split
    · rfl
    · rfl
  have hinherited : ∀ ancestor properties, (catalogue.settling asked ancestor).declared.foldl
      (withInherited (catalogue.settling asked entry) (catalogue.settling asked ancestor))
      properties = ancestor.declared.foldl (withInherited entry ancestor) properties := by
    intro ancestor properties
    rw [settling, settling]
    split
    all_goals
      split
      · rfl
      · rfl
  rw [propertyMap, List.foldl_map, hown, propertyMap]
  simp only [hinherited]

/-! ## What a class has settled on -/

/-- What a class has settled on was resolved along a part of the walk that it has now. -/
def SettledOnTheWay (catalogue : Catalogue) : Prop :=
  ∀ entry ∈ catalogue.entries, ∀ properties, entry.settled = some properties →
    ∃ ancestors, ancestors <+: catalogue.ancestors entry ∧
      properties = (propertyMap entry ancestors).values

theorem SettledOnTheWay.properties_eq (hsettled : catalogue.SettledOnTheWay)
    (hentry : entry ∈ catalogue.entries) :
    ∃ ancestors, ancestors <+: catalogue.ancestors entry ∧
      catalogue.properties entry = (propertyMap entry ancestors).values := by
  cases hproperties : entry.settled with
  | none =>
      refine ⟨_, List.prefix_rfl, ?_⟩
      rw [Catalogue.properties, hproperties, Option.getD_none, resolve]
  | some properties =>
      rw [Catalogue.properties, hproperties, Option.getD_some]
      exact hsettled entry hentry properties hproperties

theorem SettledOnTheWay.register (hsettled : catalogue.SettledOnTheWay) (package : String)
    (declaration : ClassDeclaration) :
    (catalogue.register package declaration).SettledOnTheWay := by
  intro entry hentry properties hproperties
  rcases mem_entries_register hentry with hold | rfl
  · obtain ⟨ancestors, hpart, heq⟩ := hsettled entry hold properties hproperties
    have hextends := extends_register catalogue package declaration
    exact ⟨ancestors, hpart.trans hextends.isPrefix_ancestorsFrom, heq⟩
  · exact nomatch hproperties

theorem SettledOnTheWay.settle (hsettled : catalogue.SettledOnTheWay) (asked : ClassEntry → Bool) :
    (catalogue.settle asked).SettledOnTheWay := by
  intro entry hentry properties hproperties
  rw [entries_settle] at hentry
  obtain ⟨old, hold, rfl⟩ := List.mem_map.mp hentry
  obtain ⟨ancestors, hpart, heq⟩ := hsettled.properties_eq hold
  -- the same ancestors, after some of them have settled as well
  refine ⟨ancestors.map (catalogue.settling asked), ?_, ?_⟩
  · rw [Catalogue.ancestors, superSimpleName_settling, ancestorsFrom_settle]
    exact hpart.map _
  · rw [propertyMap_settling, ← heq, settled_settling hproperties]

theorem Reachable.settledOnTheWay (hreach : catalogue.Reachable) : catalogue.SettledOnTheWay := by
  induction hreach with
  | empty roots => exact fun entry hentry => nomatch hentry
  | register _ package declaration ih => exact ih.register package declaration
  | settle _ asked ih => exact ih.settle asked

/-- Whatever a class has is resolved for it. -/
theorem Reachable.resolvedFor_eq (hreach : catalogue.Reachable) (hentry : entry ∈ catalogue.entries)
    {property : Property} (hproperty : property ∈ catalogue.properties entry) :
    property.resolvedFor = entry.simpleName := by
  obtain ⟨ancestors, -, heq⟩ := hreach.settledOnTheWay.properties_eq hentry
  rw [heq, (values_propertyMap_perm entry ancestors).mem_iff] at hproperty
  obtain ⟨candidate, -, rfl⟩ := List.mem_map.mp hproperty
  rfl

/-- The properties of a class are listed in ascending order of their names. -/
theorem Reachable.ascendingBy_properties (hreach : catalogue.Reachable)
    (hentry : entry ∈ catalogue.entries) :
    AscendingBy Property.displayName (catalogue.properties entry) := by
  obtain ⟨ancestors, -, heq⟩ := hreach.settledOnTheWay.properties_eq hentry
  rw [heq]
  exact ascendingBy_values_propertyMap entry ancestors

/-! ## Activities -/

/-- Whatever a class has, it has from one of its candidates. -/
theorem Reachable.exists_candidate (hreach : catalogue.Reachable)
    (hentry : entry ∈ catalogue.entries) {property : Property}
    (hproperty : property ∈ catalogue.properties entry) :
    ∃ candidate ∈ catalogue.candidates entry, candidate.property entry = property := by
  obtain ⟨ancestors, hpart, heq⟩ := hreach.settledOnTheWay.properties_eq hentry
  rw [heq, (values_propertyMap_perm entry ancestors).mem_iff] at hproperty
  obtain ⟨candidate, hsurvives, rfl⟩ := List.mem_map.mp hproperty
  rw [candidates, visited_eq_ancestors]
  exact ⟨candidate, Candidate.all_subset hpart (Candidate.mem_of_mem_survivors hsurvives), rfl⟩

/-- Where no ancestor bears the name of the class, what comes from one counts as inherited. -/
theorem isInherited_property {candidate : Candidate} {ancestors : List ClassEntry}
    (hcandidate : candidate ∈ Candidate.all entry ancestors)
    (hdistinct : entry.simpleName ∉ ancestors.map ClassEntry.simpleName) :
    (candidate.property entry).isInherited = candidate.ancestor?.isSome := by
  -- a property counts as inherited if its owner is not the class that shows it
  cases hancestor : candidate.ancestor? with
  | none =>
      rw [Property.isInherited, Candidate.property, hancestor]
      exact bne_self_eq_false _
  | some ancestor =>
      have hmem := Candidate.ancestor_mem_of_mem_all hcandidate hancestor
      rw [Property.isInherited, Candidate.property, hancestor]
      exact bne_iff_ne.mpr fun hname => hdistinct (List.mem_map.mpr ⟨ancestor, hmem, hname⟩)

/-- **Main statement.**  An activity comes to a root through distinct classes other
than itself, and before its hops are used up, so that more of them would change
nothing.  What it shows from an ancestor counts as inherited, what it declares
itself does not. -/
theorem properties_of_isActivity (catalogue : Catalogue) (hreach : catalogue.Reachable)
    (entry : ClassEntry) (hentry : entry ∈ catalogue.entries)
    (hactivity : catalogue.isActivity entry = true) :
    ((catalogue.visited entry).map ClassEntry.simpleName).Nodup ∧
    entry.simpleName ∉ (catalogue.visited entry).map ClassEntry.simpleName ∧
    (∃ steps < maxHops, (catalogue.visited entry).length = steps ∧
      catalogue.EndsAtRoot steps entry.superSimpleName) ∧
    (∀ bound ≥ maxHops, (propertyMap entry
      (catalogue.ancestorsFrom bound entry.superSimpleName)).values = catalogue.resolve entry) ∧
    ∀ property ∈ catalogue.properties entry,
      (∃ candidate ∈ catalogue.candidates entry, candidate.property entry = property) ∧
      ∀ candidate ∈ catalogue.candidates entry, candidate.property entry = property →
        property.isInherited = candidate.ancestor?.isSome := by
  obtain ⟨steps, hsteps, hends⟩ := isActivity_iff.mp hactivity
  have hdistinct := hends.not_mem_ancestorsFrom hentry maxHops
  rw [visited_eq_ancestors, ancestors]
  refine ⟨hends.nodup_ancestorsFrom maxHops, hdistinct, ⟨steps, hsteps, ?_, hends⟩, ?_, ?_⟩
  · rw [hends.ancestorsFrom_eq hsteps.le, hends.length_ancestorsFrom]
  · intro bound hbound
    rw [resolve, ancestors, hends.ancestorsFrom_eq hsteps.le,
      hends.ancestorsFrom_eq (hsteps.le.trans hbound)]
  · intro property hproperty
    refine ⟨hreach.exists_candidate hentry hproperty, ?_⟩
    rintro candidate hcandidate rfl
    rw [candidates, visited_eq_ancestors] at hcandidate
    exact isInherited_property hcandidate hdistinct

/-- A class below a class below the root, asked for their properties. -/
def shortChain : Catalogue :=
  let leaf : ClassDeclaration :=
    { fullName := "Leaf", baseTypeFullName := "Base",
      properties := [{ name := "Size", typeFullName := "Int32" }] }
  let base : ClassDeclaration :=
    { fullName := "Base", baseTypeFullName := "Root",
      properties := [{ name := "Speed", typeFullName := "Int32" }] }
  let registered := ((Catalogue.empty (.ofList ["Root"])).register "App" leaf).register "App" base
  registered.settle fun _ => true

theorem shortChain_properties :
    shortChain.Reachable ∧ ∃ entry ∈ shortChain.entries, shortChain.isActivity entry = true ∧
      (shortChain.properties entry).map Property.displayName = ["Base::Speed", "Size"] ∧
      ((shortChain.visited entry).map ClassEntry.simpleName).Nodup ∧
      ∀ property ∈ shortChain.properties entry,
        ∃ candidate ∈ shortChain.candidates entry, candidate.property entry = property := by
  have hreach : shortChain.Reachable :=
    (((Reachable.empty _).register _ _).register _ _).settle _
  obtain ⟨entry, hentry, hactivity, hshown⟩ : ∃ entry ∈ shortChain.entries,
      shortChain.isActivity entry = true ∧
        (shortChain.properties entry).map Property.displayName = ["Base::Speed", "Size"] := by
    decide +kernel
  obtain ⟨hdistinct, -, -, -, hproperties⟩ :=
    properties_of_isActivity shortChain hreach entry hentry hactivity
  exact ⟨hreach, entry, hentry, hactivity, hshown, hdistinct, fun property hproperty =>
    (hproperties property hproperty).1⟩

end Catalogue

end ActivityCatalogue
