import Workgraph.Value.Coerce
/-!
# Conditions on values

The comparison operators of workflows. Numbers and texts that spell numbers compare by value, and a
comparison of values that have no order is false.
-/

namespace Workgraph

/-- The operators of conditions. -/
inductive Operator where
  | equals
  | notEquals
  | greaterThan
  | lessThan
  | greaterOrEqual
  | lessOrEqual
  | contains
  | notContains
  | startsWith
  | endsWith
deriving DecidableEq, Repr

namespace Operator

/-- All operators. -/
def all : List Operator :=
  [.equals, .notEquals, .greaterThan, .lessThan, .greaterOrEqual, .lessOrEqual, .contains,
    .notContains, .startsWith, .endsWith]

/-- The name of an operator. -/
def name : Operator → String
  | .equals => "equals"
  | .notEquals => "notEquals"
  | .greaterThan => "greaterThan"
  | .lessThan => "lessThan"
  | .greaterOrEqual => "greaterOrEqual"
  | .lessOrEqual => "lessOrEqual"
  | .contains => "contains"
  | .notContains => "notContains"
  | .startsWith => "startsWith"
  | .endsWith => "endsWith"

/-- The operator of a name. -/
def ofName? (s : String) : Option Operator := all.find? fun o => o.name = s

end Operator

namespace Value

/-- Equality of conditions: null equals only null, numbers and booleans equal texts that spell the
same number, and anything else compares as it is. -/
def looselyEqual (left right : Value) : Bool :=
  match left, right with
  | .null, .null => true
  | .null, _ => false
  | _, .null => false
  | .text s, .text t => s = t
  | left, right =>
    match left.number?, right.number? with
    | some m, some n => m.sameValue n
    | some m, none =>
      match right with
      | .text t =>
        match textNumber? t with
        | some n => m.sameValue n
        | none => false
      | _ => same left right
    | none, some n =>
      match left with
      | .text s =>
        match textNumber? s with
        | some m => m.sameValue n
        | none => false
      | _ => same left right
    | none, none => same left right

mutual

/-- The order of two values of comparable kinds: numbers and booleans by value, texts by code
points, lists by their first difference. -/
def order? : Value → Value → Option Ordering
  | .text s, .text t => some (compare s t)
  | .list xs, .list ys => orderList? xs ys
  | .bool b, w => orderNumber? (.int (if b then 1 else 0)) w
  | .int n, w => orderNumber? (.int n) w
  | .real x, w => orderNumber? (.real x) w
  | _, _ => none

/-- The order of two lists: that of the first pair of different items, else that of the lengths. -/
def orderList? : List Value → List Value → Option Ordering
  | [], [] => some .eq
  | [], _ :: _ => some .lt
  | _ :: _, [] => some .gt
  | x :: xs, y :: ys => if same x y then orderList? xs ys else order? x y

/-- The order of a number and a value. -/
def orderNumber? (m : Number) (w : Value) : Option Ordering :=
  match w.number? with
  | some n => m.compare? n
  | none => none

end

/-- The order of the operands of a condition: a text that spells a number compares with a number by
value. -/
def looseOrder? (left right : Value) : Option Ordering :=
  match left, right with
  | .text s, .text t => some (compare s t)
  | .text s, w =>
    match w.number?, textNumber? s with
    | some n, some m => m.compare? n
    | _, _ => none
  | v, .text t =>
    match v.number?, textNumber? t with
    | some m, some n => m.compare? n
    | _, _ => none
  | v, w => order? v w

/-- Whether a text occurs in another. -/
def occursIn (needle text : List Char) : Bool :=
  match text with
  | [] => needle.isEmpty
  | _ :: rest => needle.isPrefixOf text || occursIn needle rest

/-- Whether a value contains another: a list an equal item, an object a field of that name, any
other value the text. -/
def holds (value expected : Value) : Bool :=
  match value with
  | .list items => items.any fun v => looselyEqual v expected
  | .object fields => Entries.has fields expected.toText
  | v => occursIn expected.toText.toList v.toText.toList

/-- Whether a condition holds for a value. Without an operator none does. -/
def satisfies (value : Value) (operator : Option Operator) (expected : Value) : Bool :=
  match operator with
  | none => false
  | some .equals => looselyEqual value expected
  | some .notEquals => !looselyEqual value expected
  | some .greaterThan => looseOrder? value expected == some .gt
  | some .lessThan => looseOrder? value expected == some .lt
  | some .greaterOrEqual =>
    let o := looseOrder? value expected
    o == some .gt || o == some .eq
  | some .lessOrEqual =>
    let o := looseOrder? value expected
    o == some .lt || o == some .eq
  | some .contains => holds value expected
  | some .notContains => !holds value expected
  | some .startsWith => expected.toText.toList.isPrefixOf value.toText.toList
  | some .endsWith => expected.toText.toList.isSuffixOf value.toText.toList

/-- The values whose texts a condition looks at. -/
def spelledIn (value : Value) (operator : Option Operator) (expected : Value) : List Value :=
  match operator, value with
  | some .contains, .list _ | some .notContains, .list _ => []
  | some .contains, .object _ | some .notContains, .object _ => [expected]
  | some .contains, _ | some .notContains, _ | some .startsWith, _ | some .endsWith, _ =>
    [expected, value]
  | _, _ => []

/-- Whether a condition holds for a value, if the texts that it looks at can be written. -/
def meets (value : Value) (operator : Option Operator) (expected : Value) : Except Defect Bool :=
  if (spelledIn value operator expected).any hasLongInteger then .error .longInteger
  else .ok (value.satisfies operator expected)

end Value

end Workgraph
