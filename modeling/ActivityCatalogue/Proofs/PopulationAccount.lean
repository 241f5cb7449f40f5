import ActivityCatalogue.Proofs.Filling

/-!
# The account of a population

The report on a population is put together on two levels, class by class for each module
and then module by module, while the catalogue grows underneath.  Whether it adds up is a
matter of offers alone: `Accounts` says that a report accounts for some offers on the way
from one catalogue to another, one offer is accounted for (`accounts_offer`), and the
accounts of two stretches, one after the other, make the account of both
(`Accounts.append`).

Which offers are refused can be told without filling anything: those whose names the
catalogue holds already, or an earlier offer bears (`refused`).  A refused offer is reported
with the package of the class that stood in its way.  That class stays, so it is the one
that is found after the population, too.
-/

namespace ActivityCatalogue

namespace Catalogue

variable {catalogue middle filled : Catalogue} {name : String} {entry : ClassEntry}

/-! ## Refused offers -/

/-- The name of the offer is taken by a class of the catalogue or by an earlier offer. -/
def IsTaken (catalogue : Catalogue) (earlier : List Offer) (offer : Offer) : Prop :=
  (catalogue.find? offer.simpleName).isSome = true ∨
    ∃ other ∈ earlier, other.simpleName = offer.simpleName

instance (catalogue : Catalogue) (earlier : List Offer) (offer : Offer) :
    Decidable (catalogue.IsTaken earlier offer) :=
  inferInstanceAs (Decidable (_ ∨ _))

/-- The offers whose names are taken when their turn comes, in order; `earlier` are the
offers before them. -/
def refused (catalogue : Catalogue) (earlier : List Offer) : List Offer → List Offer
  | [] => []
  | offer :: rest =>
    if catalogue.IsTaken earlier offer then offer :: catalogue.refused (earlier ++ [offer]) rest
    else catalogue.refused (earlier ++ [offer]) rest

theorem refused_append (catalogue : Catalogue) (earlier first second : List Offer) :
    catalogue.refused earlier (first ++ second) =
      catalogue.refused earlier first ++ catalogue.refused (earlier ++ first) second := by
  induction first generalizing earlier with
  | nil => rw [List.nil_append, List.append_nil, refused, List.nil_append]
  | cons offer first ih =>
      have hbehind : earlier ++ [offer] ++ first = earlier ++ offer :: first :=
        List.append_assoc _ _ _
      rw [List.cons_append, refused, refused, ih, hbehind]
      split
      · rfl
      · rfl

/-- A name is taken by what was offered earlier exactly if the catalogue that took the
offers holds it. -/
theorem isTaken_iff {earlier : List Offer} {offer : Offer} :
    catalogue.IsTaken earlier offer ↔
      ((earlier.foldl take catalogue).find? offer.simpleName).isSome = true := by
  rw [find?_foldl_take, Option.isSome_or, Bool.or_eq_true, Option.isSome_map,
    Offer.isSome_first?_iff, IsTaken]

theorem refused_eq (catalogue : Catalogue) (earlier offers : List Offer) :
    catalogue.refused earlier offers = (earlier.foldl take catalogue).refused [] offers := by
  induction offers generalizing catalogue earlier with
  | nil => rfl
  | cons offer rest ih =>
      have hrest : catalogue.refused (earlier ++ [offer]) rest =
          (earlier.foldl take catalogue).refused ([] ++ [offer]) rest := by
        rw [ih, ih (earlier.foldl take catalogue), List.foldl_append, List.nil_append]
      have htaken : catalogue.IsTaken earlier offer ↔
          (earlier.foldl take catalogue).IsTaken [] offer := by
        rw [isTaken_iff, isTaken_iff, List.foldl_nil]
      rw [refused, refused, hrest]
      by_cases hname : catalogue.IsTaken earlier offer
      · rw [if_pos hname, if_pos (htaken.mp hname)]
      · rw [if_neg hname, if_neg (mt htaken.mpr hname)]

/-! ## Accounts -/

/-- The duplicate that a refused offer is, if `filled` holds the class in its way. -/
def IsDuplicateOf (filled : Catalogue) (duplicate : Duplicate) (offer : Offer) : Prop :=
  duplicate.className = offer.simpleName ∧ duplicate.package = offer.package ∧
    ∃ entry, filled.get offer.simpleName = .ok entry ∧ entry.package = duplicate.firstPackage

/-- The report counts the modules and what their offers did on the way from one catalogue to
the other, and lists what was refused. -/
structure Accounts (catalogue : Catalogue) (modules : Nat) (offers : List Offer)
    (filled : Catalogue) (report : PopulationReport) : Prop where
  filled_eq : filled = offers.foldl take catalogue
  modules_eq : report.modules = modules
  size_eq : filled.size = catalogue.size + report.registered
  count_eq : report.registered + report.duplicates.length = offers.length
  duplicates : List.Forall₂ filled.IsDuplicateOf report.duplicates (catalogue.refused [] offers)

theorem get_eq_ok_iff : catalogue.get name = .ok entry ↔ catalogue.find? name = some entry := by
  rw [get]
  cases catalogue.find? name with
  | none => exact ⟨nofun, nofun⟩
  | some existing => rw [Except.ok.injEq, Option.some.injEq]

/-- Later offers leave alone the class that stood in the way. -/
theorem IsDuplicateOf.foldl_take {duplicate : Duplicate} {offer : Offer}
    (hduplicate : filled.IsDuplicateOf duplicate offer) (offers : List Offer) :
    (offers.foldl take filled).IsDuplicateOf duplicate offer := by
  obtain ⟨hname, hpackage, entry, hget, hfirst⟩ := hduplicate
  refine ⟨hname, hpackage, entry, get_eq_ok_iff.mpr ?_, hfirst⟩
  rw [find?_foldl_take, get_eq_ok_iff.mp hget, Option.some_or]

theorem size_take_of_find?_none {offer : Offer} (hfree : catalogue.find? offer.simpleName = none) :
    (catalogue.take offer).size = catalogue.size + 1 := by
  have hnew : catalogue.classes.contains offer.simpleName = false := by
    have hfree : catalogue.classes.find? offer.simpleName = none := hfree
    rw [NameMap.contains, hfree, Option.isSome_none]
  have hentered := (NameMap.perm_insertNew offer.entry hnew).length_eq
  unfold Offer.simpleName at hfree hentered
  simp only [take, register, registration, hfree]
  exact hentered

theorem accounts_nil (catalogue : Catalogue) (modules : Nat) :
    catalogue.Accounts modules [] catalogue { modules := modules } where
  filled_eq := rfl
  modules_eq := rfl
  size_eq := rfl
  count_eq := rfl
  duplicates := .nil

/-- One offer is entered, or it is refused and listed. -/
theorem accounts_offer (catalogue : Catalogue) (offer : Offer) :
    catalogue.Accounts 0 [offer] (catalogue.take offer)
      (.ofRegistration offer.package offer.simpleName
        (catalogue.registration offer.declaration)) := by
  cases hfound : catalogue.find? offer.simpleName with
  | none =>
      have hregistration : catalogue.registration offer.declaration = .inserted := by
        unfold Offer.simpleName at hfound
        rw [registration, hfound]
      have hrefused : catalogue.refused [] [offer] = [] := by
        rw [refused, if_neg, refused]
        rw [isTaken_iff, List.foldl_nil, hfound]
        exact Bool.false_ne_true
      rw [hregistration]
      refine ⟨rfl, rfl, size_take_of_find?_none hfound, rfl, ?_⟩
      rw [hrefused]
      exact .nil
  | some existing =>
      have hregistration : catalogue.registration offer.declaration =
          .duplicate existing.package := by
        unfold Offer.simpleName at hfound
        rw [registration, hfound]
      have hrefused : catalogue.refused [] [offer] = [offer] := by
        rw [refused, if_pos, refused]
        rw [isTaken_iff, List.foldl_nil, hfound]
        rfl
      have hduplicate : catalogue.IsDuplicateOf ⟨offer.simpleName, existing.package, offer.package⟩
          offer := ⟨rfl, rfl, existing, get_eq_ok_iff.mpr hfound, rfl⟩
      rw [hregistration, take_of_find?_some hfound]
      refine ⟨(take_of_find?_some hfound).symm, rfl, rfl, rfl, ?_⟩
      rw [hrefused]
      exact .cons hduplicate .nil

/-- The accounts of two stretches, one after the other, are the account of both. -/
theorem Accounts.append {modules others : Nat} {first second : List Offer}
    {report further : PopulationReport} (hfirst : catalogue.Accounts modules first middle report)
    (hsecond : middle.Accounts others second filled further) :
    catalogue.Accounts (modules + others) (first ++ second) filled (report ++ further) where
  filled_eq := by rw [hsecond.filled_eq, hfirst.filled_eq, List.foldl_append]
  modules_eq := by
    rw [← hfirst.modules_eq, ← hsecond.modules_eq]
    rfl
  size_eq := by
    have hregistered : (report ++ further).registered = report.registered + further.registered :=
      rfl
    rw [hsecond.size_eq, hfirst.size_eq, hregistered, Nat.add_assoc]
  count_eq := by
    have hregistered : (report ++ further).registered = report.registered + further.registered :=
      rfl
    have hlisted : (report ++ further).duplicates.length =
        report.duplicates.length + further.duplicates.length := List.length_append
    have hfirstCount := hfirst.count_eq
    have hsecondCount := hsecond.count_eq
    rw [List.length_append]
    omega
  duplicates := by
    have hbehind : catalogue.refused ([] ++ first) second = middle.refused [] second := by
      rw [List.nil_append, refused_eq, hfirst.filled_eq]
    rw [refused_append, hbehind]
    -- what was refused earlier was refused for a class that is still there
    refine List.rel_append (hfirst.duplicates.imp fun duplicate offer hduplicate => ?_)
      hsecond.duplicates
    rw [hsecond.filled_eq]
    exact hduplicate.foldl_take second

/-! ## Modules -/

theorem accounts_registerClasses (catalogue : Catalogue) (package : String)
    (declarations : List ClassDeclaration) :
    let registered := (catalogue.registerClasses package declarations).value
    catalogue.Accounts 0 (declarations.map (Offer.mk package)) registered.1 registered.2 := by
  induction declarations generalizing catalogue with
  | nil => exact accounts_nil catalogue 0
  | cons declaration rest ih =>
      have hfirst := catalogue.accounts_offer ⟨package, declaration⟩
      exact hfirst.append (ih (catalogue.register package declaration))

theorem accounts_registerModule (catalogue : Catalogue) (module : ModuleDeclaration) :
    let registered := (catalogue.registerModule module).value
    catalogue.Accounts 1 module.offers registered.1 registered.2 :=
  (accounts_nil catalogue 1).append
    (catalogue.accounts_registerClasses module.name module.classes)

theorem accounts_registerModules (catalogue : Catalogue) (modules : List ModuleDeclaration) :
    let registered := (catalogue.registerModules modules).value
    catalogue.Accounts modules.length (modules.flatMap ModuleDeclaration.offers)
      registered.1 registered.2 := by
  induction modules generalizing catalogue with
  | nil => exact accounts_nil catalogue 0
  | cons module rest ih =>
      have hmodule := catalogue.accounts_registerModule module
      rw [List.length_cons, Nat.add_comm]
      exact hmodule.append (ih (catalogue.registerModule module).value.1)

theorem length_flatMap_offers (modules : List ModuleDeclaration) :
    (modules.flatMap ModuleDeclaration.offers).length =
      (modules.flatMap ModuleDeclaration.classes).length := by
  induction modules with
  | nil => rfl
  | cons module rest ih =>
      rw [List.flatMap_cons, List.flatMap_cons, List.length_append, List.length_append, ih,
        ModuleDeclaration.offers, List.length_map]

/-- **Main statement.**  A provider that fails leaves the catalogue as it is, and its fault is
handed on with nothing but the operation exchanged.  The modules of any other provider are
accounted for to the last class: the report tells how many modules there were and by how many
classes the catalogue grew, and it lists, in the order in which they were met, all other
classes.  These are the ones whose simple names were taken, by a class that the catalogue held
before or by one that was met earlier; each is listed with its simple name, its own module,
and the package of the class that the catalogue holds under that name in the end. -/
theorem populate_accounts (catalogue : Catalogue) (provider : Provider) :
    match provider.modules with
    | .error fault =>
      ∃ told, (catalogue.populate provider).value = (catalogue, .error told) ∧
        told.operation = some "populate_catalogue" ∧ told.kind = fault.kind ∧
        told.entity = fault.entity ∧ told.path = fault.path ∧ told.message = fault.message ∧
        told.causes = fault.causes
    | .ok modules =>
      ∃ filled report, (catalogue.populate provider).value = (filled, .ok report) ∧
        report.modules = modules.length ∧
        filled.size = catalogue.size + report.registered ∧
        report.registered + report.duplicates.length =
          (modules.flatMap ModuleDeclaration.classes).length ∧
        List.Forall₂ filled.IsDuplicateOf report.duplicates
          (catalogue.refused [] (modules.flatMap ModuleDeclaration.offers)) := by
  obtain ⟨origin, modules⟩ := provider
  cases modules with
  | error fault => exact ⟨_, rfl, rfl, rfl, rfl, rfl, rfl, rfl⟩
  | ok modules =>
      have haccounts := catalogue.accounts_registerModules modules
      refine ⟨_, _, rfl, haccounts.modules_eq, haccounts.size_eq, ?_, haccounts.duplicates⟩
      rw [← length_flatMap_offers]
      exact haccounts.count_eq

/-- One class is in its own way twice: in its module, and in a later one. -/
example :
    ((Catalogue.empty .empty).populate (.inMemory
      [⟨"Acme.dll", [{ fullName := "Acme.Holder" }, { fullName := "Acme.Holder`1" }]⟩,
        ⟨"Beta.dll", [{ fullName := "Acme.Holder`2" }]⟩])).value.2 =
      .ok { modules := 2, registered := 1, duplicates :=
        [⟨"Acme.Holder", "Acme.dll", "Acme.dll"⟩, ⟨"Acme.Holder", "Acme.dll", "Beta.dll"⟩] } := by
  decide +kernel

end Catalogue

end ActivityCatalogue
