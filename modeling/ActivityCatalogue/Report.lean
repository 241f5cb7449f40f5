import ActivityCatalogue.Comparison.Basic
import ActivityCatalogue.TypeName.Simplifier

/-!
# The console report

A report grows with the events it is told.  It shows each as one or more lines
and keeps the tallies for the closing summary.

```text
- NS.Gone                     a class of the first catalogue only
-     Text (String)           with all its properties
  NS.Widget                   the header before the first property of a class
      Name (String)           a matched property
-     Count (Int32)           a property of the first catalogue only
+     Count (Int64)           a property of the second catalogue only
+ NS.Fresh                    a class of the second catalogue only
```
-/

namespace ActivityCatalogue

open Comparison (Sensitivity Side Event)

/-- How properties are shown. -/
structure ReportStyle where
  sensitivity : Sensitivity := default
  simplifier : Simplifier

/-- The class under whose header properties are being shown. -/
structure ReportContext where
  className : String
  modified : Bool
  deriving DecidableEq

structure Report where
  text : String := ""
  deleted : List String := []
  added : List String := []
  modified : List String := []
  propertiesDeleted : Nat := 0
  propertiesAdded : Nat := 0
  context : Option ReportContext := none
  deriving DecidableEq

/-! ## Lines -/

/-- The mark of a side; what both sides have bears none. -/
def sideMark : Option Side → String
  | none => " "
  | some .first => "-"
  | some .second => "+"

def classLine (side : Option Side) (className : String) : String :=
  sideMark side ++ " " ++ className ++ "\n"

namespace ReportStyle

/-- What follows the name of a property. -/
def typeSuffix (style : ReportStyle) (property : Property) : String :=
  match style.sensitivity with
  | .untyped => ""
  | .typedLoose => s!" ({style.simplifier.simplify property.typeFullName})"
  | .typedStrict => s!" ({property.typeFullName})"

def propertyLine (style : ReportStyle) (side : Option Side) (property : Property) : String :=
  sideMark side ++ "     " ++ property.displayName ++ style.typeSuffix property ++ "\n"

/-- The lines of a class that only one side has. -/
def wholeClass (style : ReportStyle) (side : Side) (className : String)
    (properties : List Property) : String :=
  classLine (some side) className ++ String.join (properties.map (style.propertyLine (some side)))

end ReportStyle

/-! ## Growing a report -/

namespace Report

/-- The report with the header of the property's class, unless that header is
already in force. -/
def enter (report : Report) (property : Property) : Report :=
  if report.context.any (·.className == property.resolvedFor) then report
  else
    { report with
      text := report.text ++ classLine none property.resolvedFor
      context := some ⟨property.resolvedFor, false⟩ }

/-- The report with the property's class among the modified ones; under one
header a class is counted once. -/
def markModified (report : Report) (property : Property) : Report :=
  if report.context.any (·.modified) then report
  else
    { report with
      modified := report.modified ++ [property.resolvedFor]
      context := some ⟨property.resolvedFor, true⟩ }

/-- The report after one more event. -/
def tell (style : ReportStyle) (report : Report) : Event → Report
  | .classOnlyIn side entry properties =>
    let report :=
      { report with
        text := report.text ++ style.wholeClass side entry.simpleName properties
        context := none }
    match side with
    | .first => { report with deleted := report.deleted ++ [entry.simpleName] }
    | .second => { report with added := report.added ++ [entry.simpleName] }
  | .propertyMatch property =>
    let report := report.enter property
    { report with text := report.text ++ style.propertyLine none property }
  | .propertyOnlyIn side property =>
    let report := (report.enter property).markModified property
    let report := { report with text := report.text ++ style.propertyLine (some side) property }
    match side with
    | .first => { report with propertiesDeleted := report.propertiesDeleted + 1 }
    | .second => { report with propertiesAdded := report.propertiesAdded + 1 }

/-- The report on a list of events. -/
def ofEvents (style : ReportStyle) (events : List Event) : Report := events.foldl (tell style) {}

/-! ## The summary -/

/-- The number of classes behind their label, and the classes. -/
def tally (label : String) (classNames : List String) : String :=
  s!"  {label} classes: {classNames.length}\n" ++
    String.join (classNames.map fun className => s!"    {className}\n")

/-- The closing summary, which names what was compared. -/
def summary (report : Report) (firstPaths secondPaths : List String) : String :=
  "\nSUMMARY:\n" ++
    String.join (firstPaths.map fun path => s!"  ---: {path}\n") ++
    String.join (secondPaths.map fun path => s!"  +++: {path}\n") ++
    tally "DELETED" report.deleted ++ tally "ADDED" report.added ++
    tally "MODIFIED" report.modified

end Report

/-! ## The log of a report -/

/-- The properties that a report shows for an event. -/
def Comparison.Event.properties : Event → List Property
  | .classOnlyIn _ _ properties => properties
  | .propertyMatch property | .propertyOnlyIn _ property => [property]

/-- What the log tells of an event that is reported: the types that could not be
simplified. -/
def ReportStyle.warnings (style : ReportStyle) (event : Event) : List Log.Entry :=
  match style.sensitivity with
  | .typedLoose => event.properties.flatMap fun property => Simplifier.warnings property.typeFullName
  | .untyped | .typedStrict => []

end ActivityCatalogue
