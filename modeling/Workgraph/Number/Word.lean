/-!
# Words

Integers that fit into a 64-bit word with a sign.
-/

namespace Workgraph

/-- The least natural that does not fit into a word. -/
def wordHalf : Nat := Nat.pow 2 63

/-- Whether an integer fits into a word. -/
def isWord (n : Int) : Bool := -(wordHalf : Int) ≤ n && n < (wordHalf : Int)

end Workgraph
