/-!
# JSON values

A value keeps what a reader of typed data may ask of it.  Members of an object
stay in order, and a name may occur twice.
-/

namespace ActivityCatalogue

/-- A text, or none for one that escapes leave with half of a surrogate pair:
no text holds that. -/
abbrev JsonText := Option String

inductive Json where
  | null
  | bool (value : Bool)
  /-- A number without sign, point and exponent. -/
  | natural (number : Nat)
  /-- Any other number: its digits times a power of ten. -/
  | decimal (negative : Bool) (digits : Nat) (scale : Int)
  | string (content : JsonText)
  | list (items : List Json)
  | object (members : List (JsonText × Json))

namespace Json

def ofText (text : String) : Json := .string (some text)

def ofTexts (texts : List String) : Json := .list (texts.map ofText)

/-- The object with these members. -/
def ofMembers (members : List (String × Json)) : Json :=
  .object (members.map fun member => (some member.1, member.2))

def asBool? : Json → Option Bool
  | bool value => some value
  | _ => none

def asText? : Json → Option String
  | string content => content
  | _ => none

/-- The items of a list, each read by `read`. -/
def asListOf? {α : Type} (read : Json → Option α) : Json → Option (List α)
  | list items => items.mapM read
  | _ => none

def asNatural? : Json → Option Nat
  | natural number => some number
  | _ => none

end Json

end ActivityCatalogue
