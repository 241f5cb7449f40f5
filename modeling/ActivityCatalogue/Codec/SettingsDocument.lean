import ActivityCatalogue.Settings
import ActivityCatalogue.Yaml.Record
import ActivityCatalogue.Yaml.Writer

/-!
# Settings as a YAML document

```text
ClassRecord:
  ActivityClasses:
  - System.Activities.Activity
TypeString:
  Namespaces:
  - System
```

Sections and lists that are not given keep their built-in values, and a blank
text gives none.
-/

namespace ActivityCatalogue

namespace Settings

/-- The text of the settings document. -/
def toDocument (settings : Settings) : String :=
  Yaml.listSection "ClassRecord" "ActivityClasses" settings.activityClasses ++
    Yaml.listSection "TypeString" "Namespaces" settings.namespaces

/-- A section that holds one list of texts. -/
def sectionOfNode? (document : Yaml.Document) (name : String) (builtin : List String)
    (node : Yaml.Node) : Option (List String) := do
  match (← document.fields? [name] node).lookup name with
  | none => some builtin
  | some list => document.asTexts? list

/-- The settings that the root of a document gives. -/
def ofRoot? (document : Yaml.Document) (root : Yaml.Node) : Option Settings := do
  let fields ← document.fields? ["ClassRecord", "TypeString"] root
  return {
    activityClasses := ←
      match fields.lookup "ClassRecord" with
      | none => some builtinActivityClasses
      | some node => sectionOfNode? document "ActivityClasses" builtinActivityClasses node
    namespaces := ←
      match fields.lookup "TypeString" with
      | none => some builtinNamespaces
      | some node => sectionOfNode? document "Namespaces" builtinNamespaces node }

/-- The settings that a text spells. -/
def ofDocument? (text : String) : Option Settings :=
  if Text.isVoid text then some {}
  else do
    let document ← Yaml.Document.ofText? text
    match document.root with
    | none => some {}
    | some root => ofRoot? document root

/-- The settings that the text of a file spells. -/
def parse (path text : String) : Except Fault Settings :=
  match ofDocument? text with
  | some settings => .ok settings
  | none => .error (.ofSettingsText path "the text is no settings document")

end Settings

end ActivityCatalogue
