import ActivityCatalogue.Json.Basic

/-!
# Records in JSON

A record is written as an object, and is also read from a list of its fields in
their order.  In an object the order is free and unknown members are passed
over, but no field may occur twice, and every name has to be a text.
-/

namespace ActivityCatalogue

namespace Json

/-- The fields of a record that a value gives. -/
abbrev Fields := List (String × Json)

/-- The fields among `names` that a value gives, each at most once. -/
def fields? (names : List String) : Json → Option Fields
  | object members => do
    let named ← members.mapM fun (name, value) => name.map (·, value)
    let known := named.filter fun field => names.contains field.1
    if (known.map Prod.fst).Nodup then some known else none
  | list items => if items.length ≤ names.length then some (names.zip items) else none
  | _ => none

namespace Fields

/-- A field that has to be given. -/
def required {α : Type} (fields : Fields) (name : String) (read : Json → Option α) : Option α :=
  (fields.lookup name).bind read

/-- A field that has a value of its own if it is not given. -/
def optional {α : Type} (fields : Fields) (name : String) (read : Json → Option α)
    (absent : α) : Option α :=
  match fields.lookup name with
  | none => some absent
  | some value => read value

end Fields

end Json

end ActivityCatalogue
