import ActivityCatalogue.Alignment
import ActivityCatalogue.Comparison.Basic

/-!
# Comparing the properties of a class

Two lists of resolved properties are aligned by their display names.  A name on
both sides is a match unless types are compared and differ; then each side's
property is a difference of its own.
-/

namespace ActivityCatalogue

namespace Comparison

/-- The order in which properties are aligned. -/
def propertyOrder (first second : Property) : Ordering :=
  ordinal first.displayName second.displayName

/-- Two properties of one name whose types make them different. -/
def Sensitivity.separates (sensitivity : Sensitivity) (first second : Property) : Bool :=
  sensitivity.comparesTypes && first.typeFullName != second.typeFullName

/-- The events at one place of two aligned property lists. -/
def propertyEventsAt (sensitivity : Sensitivity) : Aligned Property Property → List Event
  | .first property => [.propertyOnlyIn .first property]
  | .second property => [.propertyOnlyIn .second property]
  | .both first second =>
    if sensitivity.separates first second then
      [.propertyOnlyIn .first first, .propertyOnlyIn .second second]
    else [.propertyMatch first]

/-- The events of two property lists. -/
def propertyEvents (sensitivity : Sensitivity) (first second : List Property) : List Event :=
  (align propertyOrder first second).flatMap (propertyEventsAt sensitivity)

/-! ## Counting

The comparison counts the differences as it goes, apart from whoever listens to
the events. -/

/-- What one place of two aligned property lists adds to the count. -/
def propertyDifferencesAt (sensitivity : Sensitivity) : Aligned Property Property → Nat
  | .first _ | .second _ => 1
  | .both first second => if sensitivity.separates first second then 2 else 0

/-- The number of differences between two property lists. -/
def propertyDifferences (sensitivity : Sensitivity) (first second : List Property) : Nat :=
  (align propertyOrder first second).foldl
    (fun count place => count + propertyDifferencesAt sensitivity place) 0

end Comparison

end ActivityCatalogue
