import ActivityCatalogue.Comparison.Basic

/-!
# Records of events

A record keeps what is worth telling about an event, by names and counts, so
that it can be stored apart from the catalogues.
-/

namespace ActivityCatalogue

namespace Comparison

inductive Record where
  | classOnlyIn (side : Side) (className packageName : String) (propertyCount : Nat)
  | propertyMatch (className propertyName typeFullName : String)
  | propertyOnlyIn (side : Side) (className propertyName typeFullName : String)
  deriving DecidableEq

namespace Record

def ofEvent : Event → Record
  | .classOnlyIn side entry properties =>
    classOnlyIn side entry.simpleName entry.package properties.length
  | .propertyMatch property =>
    propertyMatch property.resolvedFor property.displayName property.typeFullName
  | .propertyOnlyIn side property =>
    propertyOnlyIn side property.resolvedFor property.displayName property.typeFullName

def isDifference : Record → Bool
  | propertyMatch .. => false
  | classOnlyIn .. | propertyOnlyIn .. => true

end Record

/-- The records of events, in order. -/
def records (events : List Event) : List Record := events.map .ofEvent

end Comparison

end ActivityCatalogue
