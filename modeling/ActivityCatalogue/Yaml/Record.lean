import ActivityCatalogue.Yaml.Node

/-!
# Records in YAML

Typed data in a document.  Every scalar is a text, however it is written.  A
missing document and an empty plain scalar are an empty mapping and an empty
sequence.  Aliases stand for what they name.
-/

namespace ActivityCatalogue

namespace Yaml

namespace Document

/-- The node that an alias stands for; any other node stands for itself. -/
def resolve? (document : Document) : Node → Option Node
  | .alias number => document.anchored.reverse.lookup number
  | node => some node

/-- The text of a scalar. -/
def asText? (document : Document) (node : Node) : Option String :=
  match document.resolve? node with
  | some (.scalar _ text) => some (String.ofList text)
  | _ => none

/-- The texts of a sequence. -/
def asTexts? (document : Document) (node : Node) : Option (List String) :=
  match document.resolve? node with
  | some (.sequence items) => items.mapM document.asText?
  | some (.scalar true []) => some []
  | _ => none

/-- The fields among `names` that a mapping gives, each at most once.  All its
keys have to be texts. -/
def fields? (document : Document) (names : List String) (node : Node) :
    Option (List (String × Node)) :=
  match document.resolve? node with
  | some (.mapping entries) => do
    let named ← entries.mapM fun (key, value) => (document.asText? key).map (·, value)
    let known := named.filter fun field => names.contains field.1
    if (known.map Prod.fst).Nodup then some known else none
  | some (.scalar true []) => some []
  | _ => none

end Document

end Yaml

end ActivityCatalogue
