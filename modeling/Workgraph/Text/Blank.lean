import Workgraph.Text.Ranges
/-!
# White space

The characters of the Unicode property White_Space and the four information separators, and the
removal of these characters from the ends of a text.
-/

namespace Workgraph.Text

/-- White space, with the separators U+001C to U+001F. -/
def blankRanges : List (Nat × Nat) :=
  [(0x9, 0xD), (0x1C, 0x20), (0x85, 0x85), (0xA0, 0xA0), (0x1680, 0x1680), (0x2000, 0x200A),
    (0x2028, 0x2029), (0x202F, 0x202F), (0x205F, 0x205F), (0x3000, 0x3000)]

/-- Whether a character is white space. -/
def isBlank (c : Char) : Bool := inRanges blankRanges c.toNat

/-- The text without white space at its ends. -/
def trim (cs : List Char) : List Char :=
  ((cs.dropWhile isBlank).reverse.dropWhile isBlank).reverse

/-- The text without white space at its ends. -/
def strip (s : String) : String := String.ofList (trim s.toList)

end Workgraph.Text
