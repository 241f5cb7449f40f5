import ActivityCatalogue.Log
import ActivityCatalogue.TypeName.Reader

/-!
# Simplified type names

A simplifier shortens type names by a set of well-known namespaces.  A text
that is no type name is shown as it is, and the log tells why.
-/

namespace ActivityCatalogue

/-- The namespaces whose names are shown without their qualifier. -/
structure Simplifier where
  namespaces : NameSet

namespace Simplifier

def ofNamespaces (namespaces : List String) : Simplifier := ⟨NameSet.ofList namespaces⟩

/-- The short form of a type name, or the violation that makes it none. -/
def simplify? (simplifier : Simplifier) (text : String) : Except TypeName.Violation String :=
  (TypeName.read text).map fun type => String.ofList (type.rendering simplifier.namespaces)

/-- The short form of a type name; any other text stays as it is. -/
def simplify (simplifier : Simplifier) (text : String) : String :=
  (simplifier.simplify? text).toOption.getD text

/-- What the log tells about a text whose simplification fails. -/
def warnings (text : String) : List Log.Entry :=
  match TypeName.read text with
  | .ok _ => []
  | .error violation =>
    [{ level := .warn, source := .typeNames, signed := true,
       message := some "type name simplification failed",
       details := [("type_name", .text text), ("error", .text violation.message)] }]

end Simplifier

end ActivityCatalogue
