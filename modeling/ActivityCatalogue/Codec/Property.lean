import ActivityCatalogue.Json.Record
import ActivityCatalogue.Property

/-!
# Resolved properties as JSON records

All fields are written, and all have to be given.
-/

namespace ActivityCatalogue

namespace Property

def fieldNames : List String := ["display_name", "type_full_name", "owning_class", "resolved_for"]

def toJson (property : Property) : Json :=
  .ofMembers
    [("display_name", .ofText property.displayName),
      ("type_full_name", .ofText property.typeFullName),
      ("owning_class", .ofText property.owningClass),
      ("resolved_for", .ofText property.resolvedFor)]

def ofJson? (json : Json) : Option Property := do
  let fields ← json.fields? fieldNames
  return {
    displayName := ← fields.required "display_name" Json.asText?
    typeFullName := ← fields.required "type_full_name" Json.asText?
    owningClass := ← fields.required "owning_class" Json.asText?
    resolvedFor := ← fields.required "resolved_for" Json.asText? }

end Property

end ActivityCatalogue
