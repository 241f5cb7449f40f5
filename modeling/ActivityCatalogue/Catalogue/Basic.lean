import ActivityCatalogue.ClassEntry
import ActivityCatalogue.Log
import ActivityCatalogue.Settings

/-!
# Catalogues

A catalogue holds the classes that were registered in it, by simple name, the
packages that contributed one, and the roots at which ancestor walks stop.  The
first class registered under a simple name stays; a later one is discarded and
the log says so.
-/

namespace ActivityCatalogue

structure Catalogue where
  classes : NameMap ClassEntry
  packages : NameSet
  roots : NameSet
  /-- Every class is registered under its own simple name. -/
  named : ∀ registered ∈ classes.entries, registered.2.simpleName = registered.1

namespace Catalogue

def empty (roots : NameSet) : Catalogue where
  classes := .empty
  packages := .empty
  roots := roots
  named := fun _ hregistered => nomatch hregistered

def ofSettings (settings : Settings) : Catalogue := .empty settings.roots

instance : Inhabited Catalogue := ⟨.ofSettings {}⟩

/-! ## Looking up -/

def find? (catalogue : Catalogue) (name : String) : Option ClassEntry :=
  catalogue.classes.find? name

/-- The registered classes in ordinal order of their simple names. -/
def entries (catalogue : Catalogue) : List ClassEntry := catalogue.classes.values

def size (catalogue : Catalogue) : Nat := catalogue.classes.size

def isRoot (catalogue : Catalogue) (name : String) : Bool := catalogue.roots.contains name

/-- A lookup that fails for want of a class. -/
structure ClassNotFound where
  className : String
  deriving DecidableEq

def ClassNotFound.message (missing : ClassNotFound) : String :=
  s!"Class not found: {missing.className}"

def ClassNotFound.fault (missing : ClassNotFound) : Fault :=
  { kind := .notFound, entity := some missing.className, message := "Class not found" }

def get (catalogue : Catalogue) (name : String) : Except ClassNotFound ClassEntry :=
  match catalogue.find? name with
  | some entry => .ok entry
  | none => .error ⟨name⟩

/-! ## Registering -/

/-- What became of a class that was to be registered. -/
inductive Registration where
  | inserted
  | duplicate (firstPackage : String)
  deriving DecidableEq

/-- Whether the class would be entered or is a duplicate. -/
def registration (catalogue : Catalogue) (declaration : ClassDeclaration) : Registration :=
  match catalogue.find? (simpleName declaration.fullName) with
  | none => .inserted
  | some existing => .duplicate existing.package

/-- The catalogue after registering a class of a package. -/
def register (catalogue : Catalogue) (package : String) (declaration : ClassDeclaration) :
    Catalogue :=
  match catalogue.registration declaration with
  | .duplicate _ => catalogue
  | .inserted =>
    { catalogue with
      classes := catalogue.classes.insertNew (simpleName declaration.fullName)
        (.ofDeclaration package declaration)
      packages := catalogue.packages.insert package
      named := fun registered hregistered => by
        rcases fst_mem_of_mem_enter hregistered with rfl | hold
        · rfl
        · exact catalogue.named registered hold }

/-- What the log tells about registering a class. -/
def registrationLog (catalogue : Catalogue) (package : String) (declaration : ClassDeclaration) :
    List Log.Entry :=
  match catalogue.registration declaration with
  | .inserted => []
  | .duplicate firstPackage =>
    [Log.noted .debug .catalogue "duplicate class registration discarded"
      [("class_name", .text (simpleName declaration.fullName)),
        ("first_package", .text firstPackage), ("package_name", .text package)]]

end Catalogue

end ActivityCatalogue
