import ActivityCatalogue.Listing
import ActivityCatalogue.Proofs.CatalogueComparison
import ActivityCatalogue.Proofs.Filling

/-!
# What a listing shows

A listing goes through the packages and looks in each for activities that are open, while a
comparison goes through all classes and looks for accessible ones.  Both find the same
classes: the packages that a filled catalogue names are those of the classes that it holds
(`packagesInStep_filled`), and going through the classes package by package meets each of
them once (`perm_flatMap_filter`).  The same holds of the activities that are left out of
the text, each of which the log tells of.
-/

namespace ActivityCatalogue

/-- Going through a list once for every name, each time for the entries under that name,
meets every entry of one of the names once. -/
theorem perm_flatMap_filter {α : Type} (key : α → String) (entries : List α) {names : List String}
    (hdistinct : names.Nodup) :
    (names.flatMap fun name => entries.filter fun entry => key entry == name).Perm
      (entries.filter fun entry => names.contains (key entry)) := by
  induction names with
  | nil => simp
  | cons name rest ih =>
      obtain ⟨hnew, hrest⟩ := List.nodup_cons.mp hdistinct
      have hsplit := List.filter_append_perm (fun entry => key entry == name)
        (entries.filter fun entry => (name :: rest).contains (key entry))
      rw [List.filter_filter, List.filter_filter] at hsplit
      have hfirst : (entries.filter fun entry =>
          key entry == name && (name :: rest).contains (key entry)) =
            entries.filter fun entry => key entry == name := by
        refine List.filter_congr fun entry _ => ?_
        by_cases hname : key entry = name
        · simp [hname]
        · simp [hname]
      have hothers : (entries.filter fun entry =>
          !(key entry == name) && (name :: rest).contains (key entry)) =
            entries.filter fun entry => rest.contains (key entry) := by
        refine List.filter_congr fun entry _ => ?_
        by_cases hname : key entry = name
        · simp [hname, hnew]
        · simp [hname]
      rw [hfirst, hothers] at hsplit
      rw [List.flatMap_cons]
      exact ((ih hrest).append_left _).trans hsplit

/-- What the log tells of an activity that is left out. -/
def ClassEntry.omission (entry : ClassEntry) : Log.Entry :=
  Log.noted .debug .listing "activity class not listed"
    [("class_name", .text entry.simpleName), ("full_name", .text entry.fullName),
      ("package_name", .text entry.package), ("is_public", .flag entry.isPublic),
      ("is_abstract", .flag entry.isAbstract), ("super_class", .text entry.superFullName)]

namespace Catalogue

variable {catalogue : Catalogue} {package : String} {entry : ClassEntry}

/-! ## Package by package -/

theorem pairwise_names_packages (catalogue : Catalogue) :
    catalogue.packages.names.Pairwise (· < ·) :=
  List.pairwise_map.mpr catalogue.packages.ascending

theorem nodup_names_packages (catalogue : Catalogue) : catalogue.packages.names.Nodup :=
  (pairwise_names_packages catalogue).imp ne_of_lt

theorem PackagesInStep.package_mem (hinStep : catalogue.PackagesInStep)
    (hentry : entry ∈ catalogue.entries) : entry.package ∈ catalogue.packages.names := by
  rw [NameMap.mem_names_iff, hinStep]
  exact ⟨entry.simpleName, entry, find?_eq_some_iff.mpr ⟨hentry, rfl⟩, rfl⟩

/-- Going through some classes of a catalogue package by package meets each of them once. -/
theorem PackagesInStep.perm_packages (hinStep : catalogue.PackagesInStep)
    (test : ClassEntry → Bool) :
    (catalogue.packages.names.flatMap fun package =>
        (catalogue.entries.filter test).filter fun entry => entry.package == package).Perm
      (catalogue.entries.filter test) := by
  have hall : ((catalogue.entries.filter test).filter fun entry =>
      catalogue.packages.names.contains entry.package) = catalogue.entries.filter test := by
    rw [List.filter_eq_self]
    intro entry hentry
    have hmem := hinStep.package_mem (List.mem_filter.mp hentry).1
    simpa using hmem
  have hperm := perm_flatMap_filter ClassEntry.package (catalogue.entries.filter test)
    (nodup_names_packages catalogue)
  rwa [hall] at hperm

/-- The accessible classes of a package, in ascending order of their simple names. -/
def accessibleOf (catalogue : Catalogue) (package : String) : List ClassEntry :=
  catalogue.accessible.filter fun entry => entry.package == package

/-- The activities that are hidden or abstract, in the same order. -/
def withheld (catalogue : Catalogue) : List ClassEntry :=
  catalogue.entries.filter fun entry => catalogue.isActivity entry && !entry.isOpen

theorem listed_eq_accessibleOf (catalogue : Catalogue) (package : String) :
    Listing.listed catalogue package = catalogue.accessibleOf package := by
  unfold Listing.listed activitiesOf accessibleOf accessible
  rw [List.filter_filter, List.filter_filter]
  refine List.filter_congr fun entry _ => ?_
  rw [isAccessible, Bool.and_left_comm]

theorem pairwise_accessibleOf (catalogue : Catalogue) (package : String) :
    ((catalogue.accessibleOf package).map ClassEntry.simpleName).Pairwise BytesBefore := by
  refine List.pairwise_map.mpr (List.Pairwise.filter _ ?_)
  exact catalogue.ascendingBy_accessible.imp bytesBefore_of_lt

/-- A filled catalogue holds each of its classes because of the first offer of its name. -/
theorem exists_first?_of_mem_filled {roots : NameSet} {calls : List Filling}
    (hentry : entry ∈ (filled roots calls).entries) :
    ∃ offer, Offer.first? (calls.flatMap Filling.offers) entry.simpleName = some offer ∧
      offer.entry = entry := by
  have hfound : (filled roots calls).find? entry.simpleName = some entry :=
    find?_eq_some_iff.mpr ⟨hentry, rfl⟩
  rw [find?_filled] at hfound
  exact Option.map_eq_some_iff.mp hfound

/-! ## Beside a comparison -/

/-- Beside an empty catalogue every accessible class stands alone. -/
theorem events_empty_left (sensitivity : Comparison.Sensitivity) (roots : NameSet)
    (catalogue : Catalogue) :
    Comparison.events sensitivity (.empty roots) catalogue =
      catalogue.accessible.map fun entry =>
        .classOnlyIn .second entry (catalogue.properties entry) := by
  have hnone : (Catalogue.empty roots).accessible = [] := rfl
  rw [Comparison.events_eq_flatMap_align, hnone, align, List.flatMap_map]
  exact List.flatMap_pure_eq_map _ _

/-! ## The log -/

/-- Whether an entry of the log tells of an activity that is left out. -/
def isOmission (told : Log.Entry) : Bool := told.message == some "activity class not listed"

theorem filter_isOmission_activityLog (catalogue : Catalogue) (entry : ClassEntry) :
    (Listing.activityLog catalogue entry).filter isOmission =
      if entry.isOpen then [] else [entry.omission] := by
  rw [Listing.activityLog]
  split
  · rw [List.filter_eq_nil_iff]
    intro told htold
    obtain ⟨property, -, hwarning⟩ := List.mem_flatMap.mp htold
    rw [Simplifier.warnings] at hwarning
    split at hwarning
    · cases hwarning
    · obtain rfl := List.mem_singleton.mp hwarning
      simp [isOmission]
  · rfl

theorem filter_isOmission_activityLogs (catalogue : Catalogue) (activities : List ClassEntry) :
    (activities.flatMap (Listing.activityLog catalogue)).filter isOmission =
      (activities.filter fun entry => !entry.isOpen).map ClassEntry.omission := by
  induction activities with
  | nil => rfl
  | cons entry rest ih =>
      rw [List.flatMap_cons, List.filter_append, filter_isOmission_activityLog, ih,
        List.filter_cons]
      cases entry.isOpen with
      | true => rfl
      | false => rfl

theorem filter_isOmission_listingLog (catalogue : Catalogue) :
    catalogue.listingLog.filter isOmission =
      (catalogue.packages.names.flatMap fun package =>
        catalogue.withheld.filter fun entry => entry.package == package).map
          ClassEntry.omission := by
  rw [listingLog, List.filter_flatMap, List.map_flatMap]
  refine List.flatMap_congr fun package _ => ?_
  have hwithheld : (catalogue.withheld.filter fun entry => entry.package == package) =
      (catalogue.activitiesOf package).filter fun entry => !entry.isOpen := by
    unfold withheld activitiesOf
    rw [List.filter_filter, List.filter_filter]
    refine List.filter_congr fun entry _ => ?_
    rw [← Bool.and_assoc, Bool.and_comm]
  rw [hwithheld, filter_isOmission_activityLogs]

/-- **Main statement.**  The listing of a filled catalogue is this:

* the packages come in ascending order of their bytes, each on a line, followed by its
  accessible classes in ascending order of their simple names, each on a line that is
  followed by one line for each of its properties;
* package by package, every accessible class is listed once and no other class is, under the
  package of the first offer of its name;
* these classes with their properties are what a comparison with an empty catalogue tells of,
  each as a class of the second catalogue alone;
* the log tells once of each activity that is left out, and of no other class. -/
theorem listing_by_package (roots : NameSet) (calls : List Filling) (simplifier : Simplifier) :
    let offers := calls.flatMap Filling.offers
    let catalogue := filled roots calls
    catalogue.listing simplifier =
      String.join (catalogue.packages.names.map fun package =>
        package ++ "\n" ++ String.join ((catalogue.accessibleOf package).map fun entry =>
          "    " ++ entry.simpleName ++ "\n" ++
            String.join ((catalogue.properties entry).map fun property =>
              "        " ++ property.displayName ++
                " (" ++ simplifier.simplify property.typeFullName ++ ")\n"))) ∧
    catalogue.packages.names.Pairwise BytesBefore ∧
    (∀ package, ((catalogue.accessibleOf package).map ClassEntry.simpleName).Pairwise
      BytesBefore) ∧
    (catalogue.packages.names.flatMap catalogue.accessibleOf).Perm catalogue.accessible ∧
    (∀ entry ∈ catalogue.accessible, ∃ offer,
      Offer.first? offers entry.simpleName = some offer ∧ offer.entry = entry ∧
        offer.package = entry.package) ∧
    (∀ sensitivity others, Comparison.events sensitivity (.empty others) catalogue =
      catalogue.accessible.map fun entry =>
        .classOnlyIn .second entry (catalogue.properties entry)) ∧
    (catalogue.listingLog.filter isOmission).Perm
      (catalogue.withheld.map ClassEntry.omission) := by
  intro offers catalogue
  have hinStep : catalogue.PackagesInStep := packagesInStep_filled roots calls
  refine ⟨?_, ?_, catalogue.pairwise_accessibleOf, ?_, ?_, ?_, ?_⟩
  · have hlisted : Listing.listed catalogue = catalogue.accessibleOf :=
      funext (listed_eq_accessibleOf catalogue)
    rw [← hlisted]
    rfl
  · exact catalogue.pairwise_names_packages.imp bytesBefore_of_lt
  · exact hinStep.perm_packages catalogue.isAccessible
  · intro entry hentry
    obtain ⟨offer, hfirst, hoffer⟩ := exists_first?_of_mem_filled (List.mem_filter.mp hentry).1
    exact ⟨offer, hfirst, hoffer, congrArg ClassEntry.package hoffer⟩
  · intro sensitivity others
    exact events_empty_left sensitivity others catalogue
  · rw [filter_isOmission_listingLog]
    exact (hinStep.perm_packages _).map _

end Catalogue

end ActivityCatalogue
