import ActivityCatalogue.Decimal
import ActivityCatalogue.Json.Basic

/-!
# Tagged records in JSON

A record whose kind is one of its own members, anywhere among them, or the
first item of a list.  Because the kind may come last, all members are kept
until it is known, so a reader of tagged records bounds what it keeps: texts
have to be whole, numbers have to be in the range of double-precision floats
when they are rounded step by step, and nesting is limited.
-/

namespace ActivityCatalogue

namespace Json

/-- The deepest nesting that is kept. -/
def maxKeptDepth : Nat := 127

mutual

/-- Whether a value is kept if it may have the given depth. -/
def isKept (depth : Nat) : Json → Bool
  | null => true
  | bool _ => true
  | natural number => Decimal.fitsStepwise number 0
  | decimal _ digits scale => Decimal.fitsStepwise digits scale
  | string text => text.isSome
  | list items => depth != 0 && areItemsKept (depth - 1) items
  | object members => depth != 0 && areMembersKept (depth - 1) members

def areItemsKept (depth : Nat) : List Json → Bool
  | [] => true
  | item :: rest => isKept depth item && areItemsKept depth rest

def areMembersKept (depth : Nat) : List (JsonText × Json) → Bool
  | [] => true
  | (name, value) :: rest => name.isSome && isKept depth value && areMembersKept depth rest

end

/-- The kind of a tagged record, and the record without it. -/
def tagged? (tag : String) : Json → Option (String × Json)
  | object members =>
    match members.partition fun member => member.1 == some tag with
    | ([(_, kind)], others) => kind.asText?.map (·, object others)
    | _ => none
  | list (kind :: items) => kind.asText?.map (·, list items)
  | _ => none

end Json

end ActivityCatalogue
