import ActivityCatalogue.Text.Ranges

/-!
# Blanks

The `White_Space` property of Unicode, and trimming by it.  It is wider than
the ASCII blanks of the core library (no-break and ideographic spaces belong
to it) and does not hold the zero-width characters.
-/

namespace ActivityCatalogue.Text

/-- The ranges of blank code points. -/
def blankRanges : Ranges :=
  [(0x9, 0xD), (0x20, 0x20), (0x85, 0x85), (0xA0, 0xA0), (0x1680, 0x1680),
   (0x2000, 0x200A), (0x2028, 0x2029), (0x202F, 0x202F), (0x205F, 0x205F), (0x3000, 0x3000)]

/-- A character that trimming removes. -/
def isBlank (c : Char) : Bool := blankRanges.covers c.toNat

/-- The text without the blanks at its two ends. -/
def trim (text : String) : String :=
  String.ofList (((text.toList.dropWhile isBlank).reverse.dropWhile isBlank).reverse)

/-- Nothing is left of the text after trimming. -/
def isVoid (text : String) : Bool := text.toList.all isBlank

end ActivityCatalogue.Text
