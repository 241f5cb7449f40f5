import ActivityCatalogue.Catalogue.Resolution
import ActivityCatalogue.Comparison.Properties

/-!
# Comparing two catalogues

The walk goes through the classes of both catalogues in ordinal order.  As long
as both have classes left it passes over the inaccessible ones one by one, and
the log tells of each; the classes that only one catalogue has left are sifted
at once.  What remains are the accessible classes, aligned by simple name.

A comparison asks for the properties of every accessible class, so both
catalogues have settled them afterwards.
-/

namespace ActivityCatalogue

namespace Comparison

/-- The order in which classes are aligned. -/
def classOrder (first second : ClassEntry) : Ordering :=
  ordinal first.simpleName second.simpleName

/-- One step of the walk. -/
inductive Step where
  /-- The class is passed over because it is inaccessible. -/
  | skip (entry : ClassEntry)
  | reach (place : Aligned ClassEntry ClassEntry)

/-- The walk through the classes that both catalogues have left. -/
def walk (first second : Catalogue) : List ClassEntry → List ClassEntry → List Step
  | [], right => (right.filter second.isAccessible).map (.reach ∘ .second)
  | left, [] => (left.filter first.isAccessible).map (.reach ∘ .first)
  | l :: left, r :: right =>
    if !first.isAccessible l then .skip l :: walk first second left (r :: right)
    else if !second.isAccessible r then .skip r :: walk first second (l :: left) right
    else match classOrder l r with
      | .lt => .reach (.first l) :: walk first second left (r :: right)
      | .gt => .reach (.second r) :: walk first second (l :: left) right
      | .eq => .reach (.both l r) :: walk first second left right
termination_by left right => left.length + right.length

/-- The walk through all classes of two catalogues. -/
def steps (first second : Catalogue) : List Step := walk first second first.entries second.entries

/-- The events of a class that one catalogue or both show. -/
def classEvents (sensitivity : Sensitivity) (first second : Catalogue) :
    Aligned ClassEntry ClassEntry → List Event
  | .first entry => [.classOnlyIn .first entry (first.properties entry)]
  | .second entry => [.classOnlyIn .second entry (second.properties entry)]
  | .both l r => propertyEvents sensitivity (first.properties l) (second.properties r)

def Step.events (sensitivity : Sensitivity) (first second : Catalogue) : Step → List Event
  | skip _ => []
  | reach place => classEvents sensitivity first second place

/-- The events of two catalogues. -/
def events (sensitivity : Sensitivity) (first second : Catalogue) : List Event :=
  (steps first second).flatMap (Step.events sensitivity first second)

/-! ## Counting -/

/-- What a class that one catalogue or both show adds to the count. -/
def classDifferences (sensitivity : Sensitivity) (first second : Catalogue) :
    Aligned ClassEntry ClassEntry → Nat
  | .first _ | .second _ => 1
  | .both l r => propertyDifferences sensitivity (first.properties l) (second.properties r)

def Step.differences (sensitivity : Sensitivity) (first second : Catalogue) : Step → Nat
  | skip _ => 0
  | reach place => classDifferences sensitivity first second place

/-- The number of differences between two catalogues, counted during the walk. -/
def differences (sensitivity : Sensitivity) (first second : Catalogue) : Nat :=
  (steps first second).foldl
    (fun count step => count + step.differences sensitivity first second) 0

/-! ## The log of a comparison -/

/-- The operation that a comparison is in the log. -/
def operation : String := "compare_catalogues"

/-- What the log tells of one step, if `heard` is what it tells of an event. -/
def Step.log (sensitivity : Sensitivity) (first second : Catalogue)
    (heard : Event → List Log.Entry) : Step → List Log.Entry
  | skip entry =>
    [Log.noted .trace .comparison "skipping inaccessible class"
      [("class_name", .text entry.simpleName)]]
  | reach place => (classEvents sensitivity first second place).flatMap heard

/-- The log of a comparison whose events go to a listener; `heard` is what the
log tells of an event there. -/
def log (sensitivity : Sensitivity) (first second : Catalogue)
    (heard : Event → List Log.Entry) : List Log.Entry :=
  Log.started .comparison operation
      [("first_classes", .count first.size), ("second_classes", .count second.size)] ::
    (steps first second).flatMap (Step.log sensitivity first second heard) ++
    [Log.finished .comparison operation
      [("differences", .count (differences sensitivity first second))]]

end Comparison

end ActivityCatalogue
