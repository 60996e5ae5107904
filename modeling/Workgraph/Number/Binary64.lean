/-!
# Binary64 numbers, exactly

A finite binary64 number is an integer count of `2 ^ (-1074)`, the least positive binary64 number.
This file defines the numbers by that count, the one rounding operation (to the nearest
representable count, ties to the even neighbour), and addition, subtraction, multiplication,
division and comparison as exact results that are rounded once. No operation here depends on
machine arithmetic, so every result is computed inside the logic.
-/

namespace Workgraph

/-! ## Quotients rounded to an integer -/

/-- `num / den` rounded to the nearest integer, a tie to the even neighbour. -/
def roundDiv (num den : Nat) : Nat :=
  let q := num / den
  let r := num % den
  if 2 * r < den then q
  else if den < 2 * r then q + 1
  else if q % 2 = 0 then q else q + 1

/-- `num / den` rounded to the nearest integer, a tie to the upper neighbour. -/
def roundDivUp (num den : Nat) : Nat :=
  if 2 * (num % den) < den then num / den else num / den + 1

/-! ## Representable counts -/

/-- The exponent of the unit: finite numbers are multiples of `2 ^ (-unitBits)`. -/
def unitBits : Nat := 1074

/-- The number one, in units. -/
def oneUnit : Nat := Nat.pow 2 unitBits

/-- The least count above the finite range. -/
def overflowUnits : Nat := Nat.pow 2 (1024 + unitBits)

/-- The spacing exponent at a count: a significand has 53 bits. -/
def spacingBits (units : Nat) : Nat := units.log2 - 52

/-- Counts that are binary64 magnitudes: within range, with at most 53 significant bits. -/
def Representable (units : Nat) : Prop :=
  units < overflowUnits ∧ units % Nat.pow 2 (spacingBits units) = 0

instance (units : Nat) : Decidable (Representable units) := by
  unfold Representable; infer_instance

/-- The count nearest to `num / den` with at most 53 significant bits, a tie to the even
significand. -/
def nearestUnits (num den : Nat) : Nat :=
  let step := Nat.pow 2 (spacingBits (num / den))
  roundDiv num (den * step) * step

/-! ## Numbers -/

/-- A binary64 number: not a number, an infinity, or a sign and a representable count of units. -/
inductive Binary64 where
  | nan
  | infinite (negative : Bool)
  | finite (negative : Bool) (units : Nat) (representable : Representable units)
deriving DecidableEq, Repr

namespace Binary64

/-- The number of a sign and a count, the infinity of that sign beyond the finite range. -/
def ofUnits (negative : Bool) (units : Nat) : Binary64 :=
  if h : Representable units then .finite negative units h else .infinite negative

/-- The quotient `num / den`, counted in units, rounded once. -/
def ofQuotient (negative : Bool) (num den : Nat) : Binary64 :=
  ofUnits negative (nearestUnits num den)

/-- Zero of the given sign. -/
def zero (negative : Bool) : Binary64 := ofUnits negative 0

/-- The nearest number to `num / den`, where `den` is positive. -/
def ofRatio (negative : Bool) (num den : Nat) : Binary64 :=
  ofQuotient negative (num * oneUnit) den

/-- The nearest number to an integer, which is infinite beyond the finite range. -/
def ofInt (n : Int) : Binary64 := ofRatio (n < 0) n.natAbs 1

/-- The number itself, if it is finite. -/
def finite? : Binary64 → Option Binary64
  | .finite s u h => some (.finite s u h)
  | _ => none

/-- The nearest finite number to an integer, if there is one. -/
def ofInt? (n : Int) : Option Binary64 := (ofInt n).finite?

/-- The nearest number to `digits * 10 ^ exponent`. -/
def ofDecimal (negative : Bool) (digits : Nat) (exponent : Int) : Binary64 :=
  if digits = 0 then zero negative
  else if exponent ≥ 0 then
    -- Past the finite range already one unit in the last place is beyond it.
    if exponent > 400 then .infinite negative
    else ofRatio negative (digits * Nat.pow 10 exponent.toNat) 1
  else ofRatio negative digits (Nat.pow 10 (-exponent).toNat)

/-! ## Observations -/

/-- Infinities and not-a-number are not finite. -/
def isFinite : Binary64 → Bool
  | .finite .. => true
  | _ => false

/-- Whether the number is not a number. -/
def isNaN : Binary64 → Bool
  | .nan => true
  | _ => false

/-- Whether the number is a zero of either sign. -/
def isZero : Binary64 → Bool
  | .finite _ u _ => u = 0
  | _ => false

/-- Whether the number is a finite integer. -/
def isInteger : Binary64 → Bool
  | .finite _ u _ => u % oneUnit = 0
  | _ => false

/-- The integer part of a finite number, towards zero. -/
def truncate? : Binary64 → Option Int
  | .finite s u _ => some (if s then -((u / oneUnit : Nat) : Int) else ((u / oneUnit : Nat) : Int))
  | _ => none

/-- The fractional part of a finite number, with the number's sign. -/
def fraction : Binary64 → Binary64
  | .finite s u _ => ofUnits s (u % oneUnit)
  | x => x

/-- A finite number rounded to an integer, a tie to the even neighbour. -/
def roundEven? : Binary64 → Option Int
  | .finite s u _ =>
    let n := roundDiv u oneUnit
    some (if s then -(n : Int) else (n : Int))
  | _ => none

/-! ## Arithmetic -/

/-- The negation, which also changes the sign of a zero. -/
def neg : Binary64 → Binary64
  | .nan => .nan
  | .infinite s => .infinite (!s)
  | .finite s u h => .finite (!s) u h

/-- The sum, rounded once. Opposite values add to the positive zero. -/
def add : Binary64 → Binary64 → Binary64
  | .nan, _ => .nan
  | _, .nan => .nan
  | .infinite s, .infinite t => if s = t then .infinite s else .nan
  | .infinite s, _ => .infinite s
  | _, .infinite t => .infinite t
  | .finite s u _, .finite t v _ =>
    if s = t then ofQuotient s (u + v) 1
    else if u = v then zero false
    else if v < u then ofQuotient s (u - v) 1
    else ofQuotient t (v - u) 1

/-- The difference, rounded once. -/
def sub (x y : Binary64) : Binary64 := add x (neg y)

/-- The product, rounded once. -/
def mul : Binary64 → Binary64 → Binary64
  | .nan, _ => .nan
  | _, .nan => .nan
  | .infinite s, .infinite t => .infinite (s != t)
  | .infinite s, .finite t v _ => if v = 0 then .nan else .infinite (s != t)
  | .finite s u _, .infinite t => if u = 0 then .nan else .infinite (s != t)
  | .finite s u _, .finite t v _ => ofQuotient (s != t) (u * v) oneUnit

/-- The quotient, rounded once. A zero divisor gives an infinity, or not-a-number for `0 / 0`. -/
def div : Binary64 → Binary64 → Binary64
  | .nan, _ => .nan
  | _, .nan => .nan
  | .infinite _, .infinite _ => .nan
  | .infinite s, .finite t _ _ => .infinite (s != t)
  | .finite s _ _, .infinite t => zero (s != t)
  | .finite s u _, .finite t v _ =>
    if v = 0 then (if u = 0 then .nan else .infinite (s != t))
    else ofQuotient (s != t) (u * oneUnit) v

instance : Neg Binary64 := ⟨neg⟩
instance : Add Binary64 := ⟨add⟩
instance : Sub Binary64 := ⟨sub⟩
instance : Mul Binary64 := ⟨mul⟩
instance : Div Binary64 := ⟨div⟩

/-! ## Order -/

/-- The order of two numbers. Not-a-number is unordered with every number. -/
def compare? : Binary64 → Binary64 → Option Ordering
  | .nan, _ => none
  | _, .nan => none
  | .infinite s, .infinite t => some (if s = t then .eq else if s then .lt else .gt)
  | .infinite s, _ => some (if s then .lt else .gt)
  | _, .infinite t => some (if t then .gt else .lt)
  | .finite s u _, .finite t v _ =>
    some (compare (if s then -(u : Int) else u) (if t then -(v : Int) else v))

/-- The order of a number and an integer, decided exactly. -/
def compareInt? : Binary64 → Int → Option Ordering
  | .nan, _ => none
  | .infinite s, _ => some (if s then .lt else .gt)
  | .finite s u _, n => some (compare (if s then -(u : Int) else (u : Int)) (n * oneUnit))

/-- Whether the first number is below the second. -/
def less (x y : Binary64) : Bool := compare? x y == some .lt

/-- Whether the numbers have the same value: zeros of either sign do, not-a-number never does. -/
def sameValue (x y : Binary64) : Bool := compare? x y == some .eq

end Binary64

end Workgraph
