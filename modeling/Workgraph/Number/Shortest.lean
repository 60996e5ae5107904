import Workgraph.Number.Binary64
/-!
# The fewest digits that identify a number

Among the decimals that round to a given finite binary64 number, `shortest` chooses one with the
fewest digits, and of those the nearest to the number. The search looks at coarser decimal grids
first and compares exactly, over natural numbers. A `Layout` record holds the decisions of one
written form: where positional writing ends and how the exponent and the special values look.
-/

namespace Workgraph

/-- The decimal `digits * 10 ^ exponent`. -/
structure Digits where
  digits : Nat
  exponent : Int
deriving DecidableEq, Repr

namespace Digits

/-- `digits * 10 ^ exponent` as a fraction of naturals. -/
def ratio (d : Digits) : Nat × Nat :=
  if d.exponent ≥ 0 then (d.digits * Nat.pow 10 d.exponent.toNat, 1)
  else (d.digits, Nat.pow 10 (-d.exponent).toNat)

/-- Moves trailing zeros of the digits into the exponent; the bound is the number of digits. -/
def stripZeros : Nat → Digits → Digits
  | 0, d => d
  | n + 1, d =>
    if d.digits ≠ 0 ∧ d.digits % 10 = 0 then stripZeros n ⟨d.digits / 10, d.exponent + 1⟩ else d

end Digits

/-- The number of decimal digits of a natural; zero has one. -/
def digitCount (n : Nat) : Nat := (Nat.toDigits 10 n).length

namespace Binary64

/-- Whether a decimal lies among the reals that round to the count `units`. The ends of that
interval belong to it exactly when the significand is even. Everything is measured in quarters of
the unit, so that the halfway points are integers. -/
def readsBack (units : Nat) (d : Digits) : Bool :=
  let step := Nat.pow 2 (spacingBits units)
  let below := if units = Nat.pow 2 units.log2 ∧ spacingBits units > 0 then step else 2 * step
  let low := 4 * units - below
  let high := 4 * units + 2 * step
  let closed := (units / step) % 2 = 0
  let (num, den) := d.ratio
  let x := 4 * num * oneUnit
  if closed then low * den ≤ x ∧ x ≤ high * den else low * den < x ∧ x < high * den

/-- The exponent `k` with `10 ^ (k - 1) ≤ units / 2 ^ 1074 < 10 ^ k`. -/
def decimalScale (units : Nat) : Int :=
  if units ≥ oneUnit then digitCount (units / oneUnit)
  else
    -- The number of decimal places before the first digit that is not zero.
    let places := (oneUnit / units).log2 * 30103 / 100000
    let at_ (p : Nat) : Bool := units * Nat.pow 10 p ≥ oneUnit
    let first := if at_ places then places else if at_ (places + 1) then places + 1 else places + 2
    1 - (first : Int)

/-- The neighbours of the number on the grid of the given exponent that read back, nearest first. -/
def gridDigits (units : Nat) (exponent : Int) : Option Digits :=
  let (num, den) :=
    if exponent ≥ 0 then (units, oneUnit * Nat.pow 10 exponent.toNat)
    else (units * Nat.pow 10 (-exponent).toNat, oneUnit)
  let lower : Digits := ⟨num / den, exponent⟩
  let upper : Digits := ⟨num / den + 1, exponent⟩
  match readsBack units lower, readsBack units upper with
  | true, true => if roundDiv num den = lower.digits then some lower else some upper
  | true, false => some lower
  | false, true => some upper
  | false, false => none

/-- The fewest digits that read back to a positive count of units. -/
def shortest (units : Nat) : Digits :=
  let scale := decimalScale units
  match (List.range 17).findSome? fun (n : Nat) => gridDigits units (scale - 1 - n) with
  | some d => d.stripZeros 20
  | none => ⟨units * Nat.pow 5 unitBits, -unitBits⟩

end Binary64

/-! ## Written forms -/

/-- The decisions of one written form of numbers. -/
structure Layout where
  /-- The least exponent of the leading digit that is written positionally. -/
  plainFrom : Int
  /-- The least exponent of the leading digit above the positional ones. -/
  plainBelow : Int
  /-- What follows a single digit before an exponent. -/
  singleDigit : String
  /-- The least number of digits of an exponent. -/
  exponentWidth : Nat
  nan : String
  infinity : String

/-- The decimal digits of a natural. -/
def digitsText (n : Nat) : String := String.ofList (Nat.toDigits 10 n)

/-- The decimal text of an integer. -/
def intText (n : Int) : String :=
  if n < 0 then "-" ++ digitsText n.natAbs else digitsText n.natAbs

/-- Pads a text on the left with a character up to a width. -/
def padLeft (width : Nat) (c : Char) (s : String) : String :=
  String.ofList (List.replicate (width - s.length) c) ++ s

namespace Layout

/-- A positive decimal in the written form. -/
def write (l : Layout) (d : Digits) : String :=
  let ds := (digitsText d.digits).toList
  let lead : Int := d.exponent + ds.length - 1
  if l.plainFrom ≤ lead ∧ lead < l.plainBelow then
    if d.exponent ≥ 0 then
      String.ofList (ds ++ List.replicate d.exponent.toNat '0') ++ ".0"
    else if lead ≥ 0 then
      String.ofList (ds.take (lead.toNat + 1)) ++ "." ++ String.ofList (ds.drop (lead.toNat + 1))
    else
      "0." ++ String.ofList (List.replicate ((-lead).toNat - 1) '0' ++ ds)
  else
    let mantissa :=
      match ds with
      | c :: r@(_ :: _) => String.ofList (c :: '.' :: r)
      | _ => String.ofList ds ++ l.singleDigit
    let sign := if lead < 0 then "-" else "+"
    mantissa ++ "e" ++ sign ++ padLeft l.exponentWidth '0' (digitsText lead.natAbs)

/-- A number in the written form. -/
def render (l : Layout) : Binary64 → String
  | .nan => l.nan
  | .infinite s => (if s then "-" else "") ++ l.infinity
  | .finite s u _ =>
    (if s then "-" else "") ++ (if u = 0 then "0.0" else l.write (Binary64.shortest u))

end Layout

end Workgraph
