import ActivityCatalogue.ClassEntry

/-!
# Observations of a comparison

A comparison of two catalogues is a list of events.  An event tells of a class
that only one catalogue shows, or of a property that both or only one of them
show.  Every event but a match is a difference.
-/

namespace ActivityCatalogue

namespace Comparison

/-- How types of properties with one name are compared and shown. -/
inductive Sensitivity where
  /-- Names alone are compared and shown. -/
  | untyped
  /-- Full type names are compared, simplified ones shown. -/
  | typedLoose
  /-- Full type names are compared and shown. -/
  | typedStrict
  deriving DecidableEq

instance : Inhabited Sensitivity := ⟨.typedLoose⟩

/-- Whether two types make two properties of one name different. -/
def Sensitivity.comparesTypes : Sensitivity → Bool
  | untyped => false
  | typedLoose | typedStrict => true

/-- One of the two catalogues. -/
inductive Side where
  | first
  | second
  deriving DecidableEq

inductive Event where
  /-- Only one catalogue has this accessible class. -/
  | classOnlyIn (side : Side) (entry : ClassEntry) (properties : List Property)
  /-- Both catalogues have the property; this is the first one's. -/
  | propertyMatch (property : Property)
  | propertyOnlyIn (side : Side) (property : Property)
  deriving DecidableEq

def Event.isDifference : Event → Bool
  | propertyMatch _ => false
  | classOnlyIn .. | propertyOnlyIn .. => true

/-- The number of differences among events. -/
def differenceCount (events : List Event) : Nat := events.countP Event.isDifference

end Comparison

end ActivityCatalogue
