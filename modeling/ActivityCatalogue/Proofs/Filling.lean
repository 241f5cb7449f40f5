import ActivityCatalogue.Catalogue.Population
import ActivityCatalogue.Proofs.ByteOrder
import ActivityCatalogue.Proofs.Registry

/-!
# What a filled catalogue holds

Classes come into a catalogue one by one, with their module, or with all modules
of a provider.  Only the list of classes that are offered in the end counts, each
with its package (`foldl_fill`): registering one offer after the other comes to the
same.

* **Which class stays.**  Under each simple name the catalogue holds the first offer
  of that name (`find?_foldl_take`).
* **Which packages are named.**  Those of the classes that are held.  The set of
  packages is kept apart from the classes, so this is an invariant of registering
  (`PackagesInStep`); a duplicate touches neither.

Both together with the roots make up the whole catalogue (`eq_of_find?_eq`).  Offers
of distinct names may therefore come in any order.
-/

namespace ActivityCatalogue

/-! ## Offers -/

/-- A class that a catalogue is to register, with its package. -/
structure Offer where
  package : String
  declaration : ClassDeclaration
  deriving DecidableEq

namespace Offer

/-- The name under which the class is to be registered. -/
def simpleName (offer : Offer) : String := ActivityCatalogue.simpleName offer.declaration.fullName

/-- The class as a catalogue holds it. -/
def entry (offer : Offer) : ClassEntry := .ofDeclaration offer.package offer.declaration

/-- The first offer of a name. -/
def first? (offers : List Offer) (name : String) : Option Offer :=
  offers.find? fun offer => offer.simpleName == name

variable {offers others : List Offer} {offer : Offer} {name : String}

theorem simpleName_of_first? (hfirst : first? offers name = some offer) :
    offer.simpleName = name := by
  simpa using List.find?_some hfirst

theorem isSome_first?_iff :
    (first? offers name).isSome = true ↔ ∃ offer ∈ offers, offer.simpleName = name := by
  simp [first?]

/-- Among offers of distinct names, every offer is the first of its name. -/
theorem first?_eq_some_iff (hdistinct : (offers.map simpleName).Nodup) :
    first? offers name = some offer ↔ offer ∈ offers ∧ offer.simpleName = name := by
  constructor
  · intro hfirst
    exact ⟨List.mem_of_find?_eq_some hfirst, simpleName_of_first? hfirst⟩
  · rintro ⟨hoffer, hname⟩
    have hsome : (first? offers name).isSome = true := isSome_first?_iff.mpr ⟨offer, hoffer, hname⟩
    obtain ⟨found, hfound⟩ := Option.isSome_iff_exists.mp hsome
    have hsame : found = offer :=
      List.inj_on_of_nodup_map hdistinct (List.mem_of_find?_eq_some hfound) hoffer
        ((simpleName_of_first? hfound).trans hname.symm)
    rw [hfound, hsame]

theorem first?_eq_of_perm (hperm : others.Perm offers)
    (hdistinct : (offers.map simpleName).Nodup) : first? others name = first? offers name := by
  have hothers : (others.map simpleName).Nodup := (hperm.map simpleName).nodup_iff.mpr hdistinct
  refine Option.ext fun offer => ?_
  rw [first?_eq_some_iff hothers, first?_eq_some_iff hdistinct, hperm.mem_iff]

end Offer

def ModuleDeclaration.offers (module : ModuleDeclaration) : List Offer :=
  module.classes.map (Offer.mk module.name)

/-! ## Ways to fill a catalogue -/

/-- A call that brings classes into a catalogue. -/
inductive Filling where
  | register (package : String) (declaration : ClassDeclaration)
  | registerModule (module : ModuleDeclaration)
  | populate (provider : Catalogue.Provider)

namespace Filling

/-- The classes that a call offers, in order.  A provider that fails offers none. -/
def offers : Filling → List Offer
  | register package declaration => [⟨package, declaration⟩]
  | registerModule module => module.offers
  | populate provider =>
    match provider.modules with
    | .ok modules => modules.flatMap ModuleDeclaration.offers
    | .error _ => []

/-- The catalogue after a call. -/
def fill (catalogue : Catalogue) : Filling → Catalogue
  | register package declaration => catalogue.register package declaration
  | registerModule module => (catalogue.registerModule module).value.1
  | populate provider => (catalogue.populate provider).value.1

end Filling

namespace Catalogue

variable {catalogue other : Catalogue} {name : String} {entry : ClassEntry}

/-- The catalogue after one offer. -/
def take (catalogue : Catalogue) (offer : Offer) : Catalogue :=
  catalogue.register offer.package offer.declaration

/-- The catalogue that calls make of a new one. -/
def filled (roots : NameSet) (calls : List Filling) : Catalogue :=
  calls.foldl Filling.fill (.empty roots)

theorem registerClasses_eq (catalogue : Catalogue) (package : String)
    (declarations : List ClassDeclaration) :
    (catalogue.registerClasses package declarations).value.1 =
      (declarations.map (Offer.mk package)).foldl take catalogue := by
  induction declarations generalizing catalogue with
  | nil => rfl
  | cons declaration rest ih => exact ih (catalogue.register package declaration)

theorem registerModules_eq (catalogue : Catalogue) (modules : List ModuleDeclaration) :
    (catalogue.registerModules modules).value.1 =
      (modules.flatMap ModuleDeclaration.offers).foldl take catalogue := by
  induction modules generalizing catalogue with
  | nil => rfl
  | cons module rest ih =>
      have hmodule : (catalogue.registerModule module).value.1 =
          module.offers.foldl take catalogue :=
        registerClasses_eq catalogue module.name module.classes
      rw [List.flatMap_cons, List.foldl_append, ← hmodule, ← ih]
      rfl

theorem fill_eq (catalogue : Catalogue) (call : Filling) :
    Filling.fill catalogue call = call.offers.foldl take catalogue := by
  cases call with
  | register package declaration => rfl
  | registerModule module => exact registerClasses_eq catalogue module.name module.classes
  | populate provider =>
      obtain ⟨origin, modules⟩ := provider
      cases modules with
      | error fault => rfl
      | ok modules => exact registerModules_eq catalogue modules

/-- Calls do to a catalogue what their offers do, one after the other. -/
theorem foldl_fill (catalogue : Catalogue) (calls : List Filling) :
    calls.foldl Filling.fill catalogue =
      (calls.flatMap Filling.offers).foldl take catalogue := by
  induction calls generalizing catalogue with
  | nil => rfl
  | cons call rest ih =>
      rw [List.foldl_cons, ih, fill_eq, List.flatMap_cons, List.foldl_append]

/-! ## Which class stays -/

theorem find?_take (catalogue : Catalogue) (offer : Offer) (name : String) :
    (catalogue.take offer).find? name =
      (catalogue.find? name).or (if offer.simpleName = name then some offer.entry else none) := by
  unfold take register registration Offer.simpleName
  cases hfound : catalogue.find? (ActivityCatalogue.simpleName offer.declaration.fullName) with
  | none => exact NameMap.find?_insertNew offer.entry
  | some existing =>
      by_cases hname : ActivityCatalogue.simpleName offer.declaration.fullName = name
      · rw [← hname, hfound, Option.some_or]
      · rw [if_neg hname, Option.or_none]

/-- The catalogue holds what it held before, and under new names the first offers. -/
theorem find?_foldl_take (catalogue : Catalogue) (offers : List Offer) (name : String) :
    (offers.foldl take catalogue).find? name =
      (catalogue.find? name).or ((Offer.first? offers name).map Offer.entry) := by
  induction offers generalizing catalogue with
  | nil => simp [Offer.first?]
  | cons offer rest ih =>
      rw [List.foldl_cons, ih, find?_take, Option.or_assoc]
      congr 1
      by_cases hname : offer.simpleName = name
      · simp [Offer.first?, hname]
      · simp [Offer.first?, hname]

theorem find?_filled (roots : NameSet) (calls : List Filling) (name : String) :
    (filled roots calls).find? name =
      (Offer.first? (calls.flatMap Filling.offers) name).map Offer.entry := by
  have hempty : (Catalogue.empty roots).find? name = none := rfl
  rw [filled, foldl_fill, find?_foldl_take, hempty, Option.none_or]

/-! ## Which packages are named -/

/-- The catalogue names exactly the packages of the classes that it holds. -/
def PackagesInStep (catalogue : Catalogue) : Prop :=
  ∀ package, catalogue.packages.contains package = true ↔
    ∃ name entry, catalogue.find? name = some entry ∧ entry.package = package

theorem packagesInStep_empty (roots : NameSet) : (empty roots).PackagesInStep := by
  intro package
  have hnone : ∀ name, (Catalogue.empty roots).find? name = none := fun _ => rfl
  have hempty : (Catalogue.empty roots).packages.contains package = false := rfl
  simp [hnone, hempty]

theorem take_of_find?_some {offer : Offer} {existing : ClassEntry}
    (hfound : catalogue.find? offer.simpleName = some existing) :
    catalogue.take offer = catalogue := by
  unfold Offer.simpleName at hfound
  simp only [take, register, registration, hfound]

theorem packages_take_of_find?_none {offer : Offer}
    (hfree : catalogue.find? offer.simpleName = none) :
    (catalogue.take offer).packages = catalogue.packages.insert offer.package := by
  unfold Offer.simpleName at hfree
  simp only [take, register, registration, hfree]

theorem PackagesInStep.take (hinStep : catalogue.PackagesInStep) (offer : Offer) :
    (catalogue.take offer).PackagesInStep := by
  intro package
  cases hfound : catalogue.find? offer.simpleName with
  | some existing =>
      -- a duplicate changes neither the classes nor the packages
      rw [take_of_find?_some hfound]
      exact hinStep package
  | none =>
      simp only [packages_take_of_find?_none hfound, NameSet.insert, NameMap.contains_insertNew,
        hinStep package, find?_take, Option.or_eq_some_iff]
      constructor
      · rintro (⟨name, entry, hentry, hpackage⟩ | rfl)
        · exact ⟨name, entry, Or.inl hentry, hpackage⟩
        · exact ⟨offer.simpleName, offer.entry, Or.inr ⟨hfound, if_pos rfl⟩, rfl⟩
      · rintro ⟨name, entry, hentry | ⟨-, hnew⟩, hpackage⟩
        · exact Or.inl ⟨name, entry, hentry, hpackage⟩
        · by_cases hname : offer.simpleName = name
          · rw [if_pos hname, Option.some_inj] at hnew
            subst hnew
            exact Or.inr hpackage.symm
          · rw [if_neg hname] at hnew
            exact absurd hnew.symm (Option.some_ne_none entry)

theorem packagesInStep_foldl_take {offers : List Offer} (hinStep : catalogue.PackagesInStep) :
    (offers.foldl Catalogue.take catalogue).PackagesInStep := by
  induction offers generalizing catalogue with
  | nil => exact hinStep
  | cons offer rest ih => exact ih (hinStep.take offer)

theorem packagesInStep_filled (roots : NameSet) (calls : List Filling) :
    (filled roots calls).PackagesInStep := by
  rw [filled, foldl_fill]
  exact packagesInStep_foldl_take (packagesInStep_empty roots)

/-! ## The whole catalogue -/

theorem roots_foldl_take (catalogue : Catalogue) (offers : List Offer) :
    (offers.foldl take catalogue).roots = catalogue.roots := by
  induction offers generalizing catalogue with
  | nil => rfl
  | cons offer rest ih =>
      have hroots : (catalogue.take offer).roots = catalogue.roots := by
        unfold take register
        split
        · rfl
        · rfl
      rw [List.foldl_cons, ih, hroots]

theorem roots_filled (roots : NameSet) (calls : List Filling) :
    (filled roots calls).roots = roots := by
  rw [filled, foldl_fill, roots_foldl_take]
  rfl

/-- Two catalogues that hold the same classes, and name no other packages than theirs,
are the same. -/
theorem eq_of_find?_eq (hinStep : catalogue.PackagesInStep) (hother : other.PackagesInStep)
    (hroots : catalogue.roots = other.roots)
    (hfind : ∀ name, catalogue.find? name = other.find? name) : catalogue = other := by
  have hclasses : catalogue.classes = other.classes := NameMap.eq_of_find?_eq hfind
  have hpackages : catalogue.packages = other.packages := by
    refine NameMap.eq_of_find?_eq fun package => Option.ext fun mark => ?_
    -- the values of a set of names are all alike
    have hheld : ∀ set : NameSet, set.find? package = some mark ↔ set.contains package = true := by
      intro set
      rw [NameMap.contains, Option.isSome_iff_exists]
      constructor
      · exact fun hfound => ⟨mark, hfound⟩
      · rintro ⟨other, hfound⟩
        exact hfound
    rw [hheld, hheld, hinStep, hother]
    simp only [hfind]
  obtain ⟨classes, packages, roots, named⟩ := catalogue
  obtain ⟨otherClasses, otherPackages, otherRoots, otherNamed⟩ := other
  obtain rfl : classes = otherClasses := hclasses
  obtain rfl : packages = otherPackages := hpackages
  obtain rfl : roots = otherRoots := hroots
  rfl

theorem filled_eq_of_first?_eq {roots : NameSet} {calls others : List Filling}
    (hfirst : ∀ name, Offer.first? (others.flatMap Filling.offers) name =
      Offer.first? (calls.flatMap Filling.offers) name) :
    filled roots others = filled roots calls := by
  refine eq_of_find?_eq (packagesInStep_filled roots others) (packagesInStep_filled roots calls)
    ?_ fun name => ?_
  · rw [roots_filled, roots_filled]
  · rw [find?_filled, find?_filled, hfirst]

theorem map_simpleName_entries (catalogue : Catalogue) :
    catalogue.entries.map ClassEntry.simpleName = catalogue.classes.names := by
  unfold entries NameMap.values NameMap.names
  rw [List.map_map]
  exact List.map_congr_left fun registered hregistered => catalogue.named registered hregistered

theorem filled_append (roots : NameSet) (calls later : List Filling) :
    filled roots (calls ++ later) =
      (later.flatMap Filling.offers).foldl take (filled roots calls) := by
  rw [filled, List.foldl_append, foldl_fill _ later]
  rfl

/-- **Main statement.**  A filled catalogue is what its offers make of it, in the order
in which they came:

* its names are the simple names of all offers, and it lists its classes in ascending
  order of their bytes, each under its own name;
* under a name it holds the first offer of that name, and no later call changes that;
* its packages are those of the offers that are held;
* its roots are those with which it began;
* calls with the same offers make the same catalogue, and so do calls with the same
  offers in another order, if all offers have distinct names. -/
theorem filled_holds_first_offers (roots : NameSet) (calls : List Filling) :
    let offers := calls.flatMap Filling.offers
    let catalogue := filled roots calls
    (∀ name, name ∈ catalogue.classes.names ↔ ∃ offer ∈ offers, offer.simpleName = name) ∧
    catalogue.entries.map ClassEntry.simpleName = catalogue.classes.names ∧
    (catalogue.entries.map ClassEntry.simpleName).Pairwise BytesBefore ∧
    (∀ name, catalogue.find? name = (Offer.first? offers name).map Offer.entry) ∧
    (∀ name entry, catalogue.find? name = some entry → entry.simpleName = name ∧
      ∀ later, (filled roots (calls ++ later)).find? name = some entry) ∧
    (∀ package, package ∈ catalogue.packages.names ↔
      ∃ name offer, Offer.first? offers name = some offer ∧ offer.package = package) ∧
    catalogue.roots = roots ∧
    (∀ others, others.flatMap Filling.offers = offers → filled roots others = catalogue) ∧
    ∀ others, (others.flatMap Filling.offers).Perm offers →
      (offers.map Offer.simpleName).Nodup → filled roots others = catalogue := by
  intro offers catalogue
  have hfind : ∀ name, catalogue.find? name = (Offer.first? offers name).map Offer.entry :=
    find?_filled roots calls
  refine ⟨fun name => ?_, map_simpleName_entries catalogue, ?_, hfind, fun name entry hentry => ?_,
    fun package => ?_, roots_filled roots calls, fun others hsame => ?_,
    fun others hperm hdistinct => ?_⟩
  · have hname : catalogue.classes.contains name = (catalogue.find? name).isSome := rfl
    rw [NameMap.mem_names_iff, hname, hfind, Option.isSome_map, Offer.isSome_first?_iff]
  · exact List.pairwise_map.mpr ((ascendingBy_entries catalogue).imp bytesBefore_of_lt)
  · refine ⟨simpleName_of_find? hentry, fun later => ?_⟩
    rw [filled_append, find?_foldl_take, hentry, Option.some_or]
  · rw [NameMap.mem_names_iff, packagesInStep_filled roots calls package]
    constructor
    · rintro ⟨name, entry, hentry, hpackage⟩
      rw [hfind, Option.map_eq_some_iff] at hentry
      obtain ⟨offer, hfirst, rfl⟩ := hentry
      exact ⟨name, offer, hfirst, hpackage⟩
    · rintro ⟨name, offer, hfirst, hpackage⟩
      exact ⟨name, offer.entry, by rw [hfind, hfirst, Option.map_some], hpackage⟩
  · exact filled_eq_of_first?_eq fun name => by rw [hsame]
  · exact filled_eq_of_first?_eq fun name => Offer.first?_eq_of_perm hperm hdistinct

/-- Three classes of two packages, brought by a module and by a provider. -/
def broughtTogether : List Filling :=
  [.registerModule ⟨"Acme.dll", [{ fullName := "Acme.Click" }, { fullName := "Acme.Holder`1" }]⟩,
    .populate (.inMemory [⟨"Beta.dll", [{ fullName := "Beta.Type" }]⟩])]

/-- The same classes, registered one by one from the last on. -/
def broughtApart : List Filling :=
  [.register "Beta.dll" { fullName := "Beta.Type" },
    .register "Acme.dll" { fullName := "Acme.Holder`1" },
    .register "Acme.dll" { fullName := "Acme.Click" }]

theorem filled_broughtApart :
    (broughtApart.flatMap Filling.offers).Perm (broughtTogether.flatMap Filling.offers) ∧
    ((broughtTogether.flatMap Filling.offers).map Offer.simpleName).Nodup ∧
    filled .empty broughtApart = filled .empty broughtTogether := by
  have hperm : (broughtApart.flatMap Filling.offers).Perm
      (broughtTogether.flatMap Filling.offers) := by decide +kernel
  have hdistinct : ((broughtTogether.flatMap Filling.offers).map Offer.simpleName).Nodup := by
    decide +kernel
  obtain ⟨-, -, -, -, -, -, -, -, hany⟩ := filled_holds_first_offers .empty broughtTogether
  exact ⟨hperm, hdistinct, hany broughtApart hperm hdistinct⟩

end Catalogue

end ActivityCatalogue
