/-!
# Tables of code points

A character class as an ascending list of inclusive ranges of code points.
-/

namespace ActivityCatalogue.Text

/-- Inclusive ranges of code points, in ascending order. -/
abbrev Ranges := List (Nat × Nat)

/-- Whether a range holds `codePoint`; the search ends at the first range above it. -/
def Ranges.covers : Ranges → Nat → Bool
  | [], _ => false
  | (low, high) :: rest, codePoint =>
    low ≤ codePoint && (codePoint ≤ high || Ranges.covers rest codePoint)

end ActivityCatalogue.Text
