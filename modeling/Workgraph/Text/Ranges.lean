/-!
# Ranges of code points

Character classes beyond ASCII are tables of closed ranges of code points, in ascending order. The
tables of this folder state properties of the Unicode standard, version 14.
-/

namespace Workgraph.Text

/-- Whether a code point lies in one of the closed ranges. -/
def inRanges (ranges : List (Nat × Nat)) (n : Nat) : Bool :=
  ranges.any fun r => r.1 ≤ n && n ≤ r.2

end Workgraph.Text
