import Workgraph.Entries
import Workgraph.Number.Shortest
/-!
# Values

The data that workflows carry: null, booleans, integers of any size, binary64 numbers, texts, lists
and objects whose fields keep their order. Equality compares numbers by value, with `true` as one
and `false` as zero, and objects without regard to the order of their fields.
-/

namespace Workgraph

/-- A value. -/
inductive Value where
  | null
  | bool (b : Bool)
  | int (n : Int)
  | real (x : Binary64)
  | text (s : String)
  | list (items : List Value)
  | object (fields : List (String × Value))
deriving Inhabited

/-- The variables of a run: named values in order of arrival. -/
abbrev Context := Entries Value

/-- A number of a value: an integer of any size, or a binary64 number. -/
inductive Number where
  | int (n : Int)
  | real (x : Binary64)
deriving DecidableEq, Repr

namespace Number

/-- The order of two numbers, decided exactly; not-a-number is unordered. -/
def compare? : Number → Number → Option Ordering
  | .int m, .int n => some (compare m n)
  | .int m, .real y => (y.compareInt? m).map Ordering.swap
  | .real x, .int n => x.compareInt? n
  | .real x, .real y => x.compare? y

/-- Whether two numbers have the same value. -/
def sameValue (m n : Number) : Bool := compare? m n == some .eq

/-- Whether the number is zero. -/
def isZero : Number → Bool
  | .int n => n = 0
  | .real x => x.isZero

end Number

namespace Value

/-- The number as a value. -/
def ofNumber : Number → Value
  | .int n => .int n
  | .real x => .real x

/-- The number that a boolean or numeric value stands for. -/
def number? : Value → Option Number
  | .bool b => some (.int (if b then 1 else 0))
  | .int n => some (.int n)
  | .real x => some (.real x)
  | _ => none

/-- The name of the kind of a value, as messages write it. -/
def kind : Value → String
  | .null => "NoneType"
  | .bool _ => "bool"
  | .int _ => "int"
  | .real _ => "float"
  | .text _ => "str"
  | .list _ => "list"
  | .object _ => "dict"

/-- Whether a value counts as present: not null, false, zero or empty. -/
def isPresent : Value → Bool
  | .null => false
  | .bool b => b
  | .int n => n ≠ 0
  | .real x => !x.isZero
  | .text s => s ≠ ""
  | .list items => !items.isEmpty
  | .object fields => !fields.isEmpty

mutual

/-- Equality of values. -/
def same : Value → Value → Bool
  | .null, .null => true
  | .text s, .text t => s = t
  | .list xs, .list ys => sameList xs ys
  | .object fs, .object gs => fs.length = gs.length && sameFields fs gs
  | .bool b, w => sameNumber (.int (if b then 1 else 0)) w
  | .int n, w => sameNumber (.int n) w
  | .real x, w => sameNumber (.real x) w
  | _, _ => false

/-- Equality of lists of values, place by place. -/
def sameList : List Value → List Value → Bool
  | [], [] => true
  | x :: xs, y :: ys => same x y && sameList xs ys
  | _, _ => false

/-- Whether every field of the first object has an equal value in the second. -/
def sameFields : List (String × Value) → List (String × Value) → Bool
  | [], _ => true
  | (k, v) :: rest, gs =>
    (match Entries.get? gs k with
      | some w => same v w
      | none => false) && sameFields rest gs

/-- Whether a value is a number or boolean of the given value. -/
def sameNumber (m : Number) (w : Value) : Bool :=
  match w.number? with
  | some n => m.sameValue n
  | none => false

end

/-- The field of an object, and nothing for any other value. -/
def field? : Value → String → Option Value
  | .object fields, name => Entries.get? fields name
  | _, _ => none

end Value

end Workgraph
