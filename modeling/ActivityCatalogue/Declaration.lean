/-!
# Declarations

What a metadata provider tells about a module: the classes it declares and the
properties that each class declares itself.
-/

namespace ActivityCatalogue

/-- A property as its class declares it. -/
structure DeclaredProperty where
  name : String
  typeFullName : String
  isStatic : Bool := false
  hasGetter : Bool := true
  hasSetter : Bool := true
  getterIsPublic : Bool := true
  getterIsVirtual : Bool := false
  deriving DecidableEq

/-- Only public read/write instance properties count; all others are invisible. -/
def DeclaredProperty.isEligible (property : DeclaredProperty) : Bool :=
  !property.isStatic && property.hasGetter && property.hasSetter && property.getterIsPublic

/-- A class as its module declares it.  The base type is empty if there is none. -/
structure ClassDeclaration where
  fullName : String
  isPublic : Bool := false
  isAbstract : Bool := false
  baseTypeFullName : String := ""
  properties : List DeclaredProperty := []
  deriving DecidableEq

/-- A module; its name is the package of every class it declares. -/
structure ModuleDeclaration where
  name : String
  classes : List ClassDeclaration := []
  deriving DecidableEq

end ActivityCatalogue
