import ActivityCatalogue.Codec.Declaration
import ActivityCatalogue.Fault
import ActivityCatalogue.Json.Reader
import ActivityCatalogue.Json.Writer
import ActivityCatalogue.Text.Blank

/-!
# Snapshots

A snapshot is the stored form of the modules of a catalogue, a JSON document.
Its modules need names that are not blank and its classes need names.

```text
{ "modules": [ { "name": "Acme.Activities.dll", "classes": [ … ] } ] }
```
-/

namespace ActivityCatalogue

structure Snapshot where
  modules : List ModuleDeclaration := []
  deriving DecidableEq

namespace Snapshot

def fieldNames : List String := ["modules"]

def toJson (snapshot : Snapshot) : Json :=
  .ofMembers [("modules", .list (snapshot.modules.map ModuleDeclaration.toJson))]

def ofJson? (json : Json) : Option Snapshot := do
  let fields ← json.fields? fieldNames
  return { modules := ← fields.optional "modules" (Json.asListOf? ModuleDeclaration.ofJson?) [] }

/-- The text under which a snapshot is stored. -/
def toText (snapshot : Snapshot) : String := snapshot.toJson.pretty

/-! ## Defects -/

/-- Why a text is no snapshot. -/
inductive Defect where
  | malformed
  | blankModuleName
  /-- The class at this place of a module has no name. -/
  | namelessClass (position : Nat) (module : String)
  deriving DecidableEq

def Defect.message : Defect → String
  | malformed => "the text is no snapshot document"
  | blankModuleName => "module name is empty"
  | namelessClass position module => s!"class #{position} of module {module} has an empty name"

/-- The first name that a module lacks; its own name comes first. -/
def moduleDefect? (module : ModuleDeclaration) : Option Defect :=
  if Text.isVoid module.name then some .blankModuleName
  else
    (module.classes.findIdx? fun declaration => declaration.fullName.isEmpty).map
      (.namelessClass · module.name)

/-- The first name that a snapshot lacks. -/
def defect? (snapshot : Snapshot) : Option Defect := snapshot.modules.findSome? moduleDefect?

/-- The snapshot that a text spells. -/
def ofText (text : String) : Except Defect Snapshot :=
  match (Json.read text).bind ofJson? with
  | none => .error .malformed
  | some snapshot =>
    match snapshot.defect? with
    | none => .ok snapshot
    | some defect => .error defect

/-- The snapshot that the text of a file spells. -/
def parse (path text : String) : Except Fault Snapshot :=
  (ofText text).mapError fun defect => .ofSnapshotText path defect.message

end Snapshot

end ActivityCatalogue
