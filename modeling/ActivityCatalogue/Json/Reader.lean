import ActivityCatalogue.Json.Token

/-!
# Reading JSON

A value is an atom, a list or an object; the whole text has to be one value.
Each value takes at least one token, so the number of tokens bounds the depth.
-/

namespace ActivityCatalogue

namespace Json

mutual

/-- The value at the start, and the tokens behind it. -/
def readValue : (bound : Nat) → List Token → Option (Json × List Token)
  | 0, _ => none
  | bound + 1, tokens =>
    match tokens with
    | .atom value :: rest => some (value, rest)
    | .openList :: .closeList :: rest => some (.list [], rest)
    | .openList :: rest => (readItems bound rest).map fun (items, left) => (.list items, left)
    | .openObject :: .closeObject :: rest => some (.object [], rest)
    | .openObject :: rest =>
      (readMembers bound rest).map fun (members, left) => (.object members, left)
    | _ => none

/-- The items up to the closing bracket. -/
def readItems : (bound : Nat) → List Token → Option (List Json × List Token)
  | 0, _ => none
  | bound + 1, tokens => do
    let (item, rest) ← readValue bound tokens
    match rest with
    | .closeList :: left => return ([item], left)
    | .comma :: more =>
      let (items, left) ← readItems bound more
      return (item :: items, left)
    | _ => none

/-- The members up to the closing brace. -/
def readMembers : (bound : Nat) → List Token → Option (List (JsonText × Json) × List Token)
  | bound + 1, .atom (.string name) :: .colon :: tokens => do
    let (value, rest) ← readValue bound tokens
    match rest with
    | .closeObject :: left => return ([(name, value)], left)
    | .comma :: more =>
      let (members, left) ← readMembers bound more
      return ((name, value) :: members, left)
    | _ => none
  | _, _ => none

end

/-- The value that the whole text spells. -/
def read (text : String) : Option Json := do
  let tokens ← Token.readAll text
  match ← readValue (2 * tokens.length) tokens with
  | (value, []) => some value
  | _ => none

end Json

end ActivityCatalogue
