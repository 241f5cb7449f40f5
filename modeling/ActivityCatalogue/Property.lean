/-!
# Resolved properties
-/

namespace ActivityCatalogue

/-- One property of a class after resolution: its own, or one that it inherits. -/
structure Property where
  /-- The plain name of an own property, else the decorated name. -/
  displayName : String
  typeFullName : String
  /-- The simple name of the class that declares the property. -/
  owningClass : String
  /-- The simple name of the class that has the property. -/
  resolvedFor : String
  deriving DecidableEq

def Property.isInherited (property : Property) : Bool :=
  property.owningClass != property.resolvedFor

end ActivityCatalogue
