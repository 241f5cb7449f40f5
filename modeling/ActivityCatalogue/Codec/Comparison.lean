import ActivityCatalogue.Comparison.Record
import ActivityCatalogue.Json.Record
import ActivityCatalogue.Json.Tagged

/-!
# Comparison data as JSON

A record of an event is tagged with its kind.  Members are written in ordinal
order of their names.  A sensitivity is its bare name, or an object with that
name as the only member and null as its value.
-/

namespace ActivityCatalogue

namespace Comparison

namespace Sensitivity

def label : Sensitivity → String
  | untyped => "none"
  | typedLoose => "typed_loose"
  | typedStrict => "typed_strict"

def ofLabel? (name : String) : Option Sensitivity :=
  [untyped, typedLoose, typedStrict].find? fun sensitivity => sensitivity.label == name

def toJson (sensitivity : Sensitivity) : Json := .ofText sensitivity.label

def ofJson? : Json → Option Sensitivity
  | .string name => name.bind ofLabel?
  | .object [(name, .null)] => name.bind ofLabel?
  | _ => none

end Sensitivity

/-- The name of a side in the kinds of records. -/
def Side.label : Side → String
  | first => "first"
  | second => "second"

namespace Record

/-- The kind under which a record is written. -/
def kind : Record → String
  | classOnlyIn side .. => "class_only_in_" ++ side.label
  | propertyMatch .. => "property_match"
  | propertyOnlyIn side .. => "property_only_in_" ++ side.label

def toJson (record : Record) : Json :=
  match record with
  | classOnlyIn _ className packageName propertyCount =>
    .ofMembers
      [("class_name", .ofText className), ("kind", .ofText record.kind),
        ("package_name", .ofText packageName), ("property_count", .natural propertyCount)]
  | propertyMatch className propertyName typeFullName
  | propertyOnlyIn _ className propertyName typeFullName =>
    .ofMembers
      [("class_name", .ofText className), ("kind", .ofText record.kind),
        ("property_name", .ofText propertyName), ("type_full_name", .ofText typeFullName)]

/-- A count that fits into 64 bits. -/
def asCount? (json : Json) : Option Nat :=
  json.asNatural?.filter fun count => count < Nat.pow 2 64

def classOnlyInOfJson? (side : Side) (json : Json) : Option Record := do
  let fields ← json.fields? ["class_name", "package_name", "property_count"]
  return classOnlyIn side (← fields.required "class_name" Json.asText?)
    (← fields.required "package_name" Json.asText?) (← fields.required "property_count" asCount?)

/-- The record of a property that `make` builds from three names. -/
def propertyOfJson? (make : String → String → String → Record) (json : Json) : Option Record := do
  let fields ← json.fields? ["class_name", "property_name", "type_full_name"]
  return make (← fields.required "class_name" Json.asText?)
    (← fields.required "property_name" Json.asText?)
    (← fields.required "type_full_name" Json.asText?)

def ofJson? (json : Json) : Option Record := do
  guard (json.isKept Json.maxKeptDepth)
  let (kind, content) ← json.tagged? "kind"
  match kind with
  | "class_only_in_first" => classOnlyInOfJson? .first content
  | "class_only_in_second" => classOnlyInOfJson? .second content
  | "property_match" => propertyOfJson? propertyMatch content
  | "property_only_in_first" => propertyOfJson? (propertyOnlyIn .first) content
  | "property_only_in_second" => propertyOfJson? (propertyOnlyIn .second) content
  | _ => none

end Record

end Comparison

end ActivityCatalogue
