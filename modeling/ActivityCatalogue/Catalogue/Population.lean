import ActivityCatalogue.Catalogue.Basic

/-!
# Population

A catalogue is filled from the modules of a provider.  The report counts the
modules and the classes that were entered, and lists the discarded duplicates
in the order in which they were met.
-/

namespace ActivityCatalogue

/-- A class that was discarded because its simple name was taken. -/
structure Duplicate where
  className : String
  firstPackage : String
  package : String
  deriving DecidableEq

structure PopulationReport where
  modules : Nat := 0
  registered : Nat := 0
  duplicates : List Duplicate := []
  deriving DecidableEq

namespace PopulationReport

/-- The report on two passes, one after the other. -/
def append (first second : PopulationReport) : PopulationReport where
  modules := first.modules + second.modules
  registered := first.registered + second.registered
  duplicates := first.duplicates ++ second.duplicates

instance : Append PopulationReport := ⟨append⟩

/-- The report on one class of a package. -/
def ofRegistration (package className : String) : Catalogue.Registration → PopulationReport
  | .inserted => { registered := 1 }
  | .duplicate firstPackage => { duplicates := [⟨className, firstPackage, package⟩] }

end PopulationReport

namespace Catalogue

/-- Registers the classes of one package, in order. -/
def registerClasses (catalogue : Catalogue) (package : String) :
    List ClassDeclaration → Logged (Catalogue × PopulationReport)
  | [] => pure (catalogue, {})
  | declaration :: rest => do
    Logged.write (catalogue.registrationLog package declaration)
    let report := PopulationReport.ofRegistration package (simpleName declaration.fullName)
      (catalogue.registration declaration)
    let (filled, further) ← registerClasses (catalogue.register package declaration) package rest
    return (filled, report ++ further)

/-- Registers the classes of one module. -/
def registerModule (catalogue : Catalogue) (module : ModuleDeclaration) :
    Logged (Catalogue × PopulationReport) := do
  let (filled, report) ← catalogue.registerClasses module.name module.classes
  return (filled, { modules := 1 } ++ report)

/-- Registers the classes of several modules, in order. -/
def registerModules (catalogue : Catalogue) :
    List ModuleDeclaration → Logged (Catalogue × PopulationReport)
  | [] => pure (catalogue, {})
  | module :: rest => do
    let (filled, report) ← catalogue.registerModule module
    let (last, further) ← registerModules filled rest
    return (last, report ++ further)

/-- A source of modules: its origin as the log shows it, and its modules or the
fault that keeps them back. -/
structure Provider where
  origin : String
  modules : Except Fault (List ModuleDeclaration)

/-- The provider over modules that are at hand. -/
def Provider.inMemory (modules : List ModuleDeclaration) : Provider := ⟨"in-memory", .ok modules⟩

/-- The operation that filling a catalogue is in the log. -/
def populateOperation : String := "populate_catalogue"

/-- Fills the catalogue from a provider.  A provider that fails leaves it as it is. -/
def populate (catalogue : Catalogue) (provider : Provider) :
    Logged (Catalogue × Except Fault PopulationReport) := do
  let origin := [("path", Log.Value.text provider.origin)]
  Logged.write [Log.started .catalogue populateOperation origin]
  match provider.modules with
  | .error fault => do
    let fault := fault.duringOperation populateOperation
    Logged.write [Log.failed .catalogue populateOperation fault origin]
    return (catalogue, .error fault)
  | .ok modules => do
    let (filled, report) ← catalogue.registerModules modules
    Logged.write [Log.finished .catalogue populateOperation
      (origin ++ [("class_count", .count report.registered)])]
    return (filled, .ok report)

end Catalogue

end ActivityCatalogue
