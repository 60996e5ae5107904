import Workgraph.Value.Basic
import Workgraph.Text.Quoted
/-!
# Values in messages

The written form of values inside messages: texts are quoted, numbers have the fewest digits that
identify them, and the constants are capitalised.
-/

namespace Workgraph

/-- Numbers are written positionally from `10 ^ (-4)` to below `10 ^ 16`, otherwise with a signed
exponent of at least two digits. -/
def numberLayout : Layout where
  plainFrom := -4
  plainBelow := 16
  singleDigit := ""
  exponentWidth := 2
  nan := "nan"
  infinity := "inf"

/-- The text of a binary64 number. -/
def realText (x : Binary64) : String := numberLayout.render x

namespace Value

mutual

/-- The written form of a value. -/
def literal : Value → String
  | .null => "None"
  | .bool b => if b then "True" else "False"
  | .int n => intText n
  | .real x => realText x
  | .text s => Text.quoted s
  | .list items => "[" ++ ", ".intercalate (literalList items) ++ "]"
  | .object fields => "\x7b" ++ ", ".intercalate (literalFields fields) ++ "\x7d"

/-- The written forms of a list of values. -/
def literalList : List Value → List String
  | [] => []
  | v :: rest => literal v :: literalList rest

/-- The written forms of fields. -/
def literalFields : List (String × Value) → List String
  | [] => []
  | (k, v) :: rest => (Text.quoted k ++ ": " ++ literal v) :: literalFields rest

end

/-- The value as a message shows it by itself: a text stands without quotes. -/
def shown : Value → String
  | .text s => s
  | v => v.literal

end Value

end Workgraph
