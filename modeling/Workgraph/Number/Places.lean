import Workgraph.Number.Shortest
/-!
# Rounding to decimal places

A finite number denotes a decimal: an integer itself, a binary64 number the fewest digits that
identify it. Rounding to `p` places gives the multiple of `10 ^ (-p)` nearest to that decimal,
halves away from zero, if it has at most 28 digits.
-/

namespace Workgraph

/-- A decimal with a sign. -/
structure Decimal where
  negative : Bool
  digits : Nat
  exponent : Int
deriving DecidableEq, Repr

namespace Decimal

/-- The most digits of a rounded decimal. -/
def maxDigits : Nat := 28

/-- The greatest exponent of a decimal. -/
def maxExponent : Int := 999999

/-- The least exponent of a decimal. -/
def minExponent : Int := -1000026

/-- The decimal of an integer. -/
def ofInt (n : Int) : Decimal := ⟨n < 0, n.natAbs, 0⟩

/-- The decimal with the fewest digits that identifies a finite number. -/
def ofReal? : Binary64 → Option Decimal
  | .finite s u _ =>
    if u = 0 then some ⟨s, 0, 0⟩
    else
      let d := Binary64.shortest u
      some ⟨s, d.digits, d.exponent⟩
  | _ => none

/-- The multiple of `10 ^ exponent` nearest to a decimal, halves away from zero, unless it has too
many digits. -/
def quantize? (d : Decimal) (exponent : Int) : Option Decimal :=
  if d.digits = 0 then some ⟨d.negative, 0, exponent⟩
  else
    let shift := d.exponent - exponent
    let size := (digitCount d.digits : Int) + shift
    if size > maxDigits then none
    else if size < 0 then some ⟨d.negative, 0, exponent⟩
    else
      let n :=
        if shift ≥ 0 then d.digits * Nat.pow 10 shift.toNat
        else roundDivUp d.digits (Nat.pow 10 (-shift).toNat)
      if digitCount n > maxDigits || exponent + digitCount n - 1 > maxExponent then none
      else some ⟨d.negative, n, exponent⟩

/-- The integer that a decimal is, if it is one. -/
def toInt? (d : Decimal) : Option Int :=
  let signed (n : Nat) : Int := if d.negative then -(n : Int) else n
  if d.digits = 0 then some 0
  else if d.exponent ≥ 0 then some (signed (d.digits * Nat.pow 10 d.exponent.toNat))
  else
    let scale := Nat.pow 10 (-d.exponent).toNat
    if d.digits % scale = 0 then some (signed (d.digits / scale)) else none

/-- The binary64 number nearest to a decimal. -/
def toReal (d : Decimal) : Binary64 := Binary64.ofDecimal d.negative d.digits d.exponent

end Decimal

/-- Why a number cannot be rounded to places. -/
inductive PlacesError where
  | invalid
  | overflow
deriving DecidableEq, Repr

/-- The exponent that stands for a number of places: beyond the exponents of decimals it stops at
the least one, and cannot be above the greatest. -/
def placesExponent (places : Int) : Except PlacesError Int :=
  if places < -2000054 ∨ 2000054 < places then .error .invalid
  else if -places > Decimal.maxExponent then .error .overflow
  else .ok (max (-places) Decimal.minExponent)

end Workgraph
