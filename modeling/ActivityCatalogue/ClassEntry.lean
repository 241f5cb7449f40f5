import ActivityCatalogue.Declaration
import ActivityCatalogue.Property

/-!
# Registered classes

A class is registered under its simple name, which is its full name without
the mark and number of its template arguments.
-/

namespace ActivityCatalogue

/-! ## Simple names and namespaces -/

/-- What stands before the first backtick, unless that is the first character. -/
def simpleName (fullName : String) : String :=
  match fullName.toList.takeWhile (· != Char.ofNat 0x60) with
  | [] => fullName
  | plain => String.ofList plain

/-- What stands up to and including the last dot, a lone dot if there is none. -/
def namespaceOf (name : String) : String :=
  match name.toList.reverse.dropWhile (· != '.') with
  | [] => "."
  | qualifier => String.ofList qualifier.reverse

/-! ## The entry -/

/-- A registered class.  Its resolved properties are kept once they have been
asked for. -/
structure ClassEntry where
  simpleName : String
  fullName : String
  package : String
  isPublic : Bool
  isAbstract : Bool
  superSimpleName : String
  superFullName : String
  /-- The properties that the class declares itself, as far as they are eligible. -/
  declared : List DeclaredProperty
  settled : Option (List Property) := none
  eligible : ∀ property ∈ declared, property.isEligible = true
  deriving DecidableEq

namespace ClassEntry

def ofDeclaration (package : String) (declaration : ClassDeclaration) : ClassEntry where
  simpleName := ActivityCatalogue.simpleName declaration.fullName
  fullName := declaration.fullName
  package := package
  isPublic := declaration.isPublic
  isAbstract := declaration.isAbstract
  superSimpleName := ActivityCatalogue.simpleName declaration.baseTypeFullName
  superFullName := declaration.baseTypeFullName
  declared := declaration.properties.filter DeclaredProperty.isEligible
  eligible := fun _ hproperty => (List.mem_filter.mp hproperty).2

def namespaceName (entry : ClassEntry) : String := namespaceOf entry.simpleName

/-- Neither hidden nor abstract. -/
def isOpen (entry : ClassEntry) : Bool := entry.isPublic && !entry.isAbstract

end ClassEntry

end ActivityCatalogue
