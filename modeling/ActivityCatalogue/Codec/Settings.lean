import ActivityCatalogue.Json.Record
import ActivityCatalogue.Settings

/-!
# Settings as JSON records

A section for the classes and one for type names, each with one list.  Sections
and lists that are not given keep their built-in values.
-/

namespace ActivityCatalogue

namespace Settings

def toJson (settings : Settings) : Json :=
  .ofMembers
    [("ClassRecord", .ofMembers [("ActivityClasses", .ofTexts settings.activityClasses)]),
      ("TypeString", .ofMembers [("Namespaces", .ofTexts settings.namespaces)])]

/-- A section that holds one list of texts. -/
def sectionOfJson? (name : String) (builtin : List String) (json : Json) :
    Option (List String) := do
  let fields ← json.fields? [name]
  fields.optional name (Json.asListOf? Json.asText?) builtin

def ofJson? (json : Json) : Option Settings := do
  let fields ← json.fields? ["ClassRecord", "TypeString"]
  return {
    activityClasses := ←
      fields.optional "ClassRecord" (sectionOfJson? "ActivityClasses" builtinActivityClasses)
        builtinActivityClasses
    namespaces := ←
      fields.optional "TypeString" (sectionOfJson? "Namespaces" builtinNamespaces)
        builtinNamespaces }

end Settings

end ActivityCatalogue
