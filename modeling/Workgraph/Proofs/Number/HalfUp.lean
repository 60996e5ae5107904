import Workgraph.Number.Places
import Workgraph.Proofs.Number.DigitText
import Workgraph.Proofs.Number.Rounding
/-!
# Rounding half up

The multiple of a unit that is nearest to a number, and of two such multiples the one farther from
zero, is unique (`IsNearestMultiple.unique`). Rounding a decimal to an exponent gives this multiple
of the power of ten if it has at most 28 digits, and nothing otherwise (`Decimal.quantize?_eq`). The
limit on exponents plays no part in it, as long as the decimal is not itself beyond the limit.
-/

namespace Workgraph

/-! ## Nearest multiples -/

/-- The multiple of a unit that is nearest to a number, and of two of them the one farther from
zero. -/
structure IsNearestMultiple (unit x : ℚ) (m : ℤ) : Prop where
  nearest : ∀ k : ℤ, |x - m * unit| ≤ |x - k * unit|
  away : ∀ k : ℤ, |x - k * unit| = |x - m * unit| → |k| ≤ |m|

namespace IsNearestMultiple

variable {unit x : ℚ} {m m' : ℤ}

/-- A multiple is nearest to a number that lies at most half a unit above it and less than half a
unit below. -/
theorem of_bounds (hunit : 0 < unit) {n : ℕ} (hlow : n * unit ≤ x + unit / 2)
    (hhigh : x + unit / 2 < (n + 1) * unit) (hx : 0 ≤ x) : IsNearestMultiple unit x n := by
  have hself : |x - (n : ℤ) * unit| ≤ unit / 2 := by
    rw [Int.cast_natCast, abs_le]
    constructor <;> linarith
  -- Multiples above are farther than half a unit, and those below at least as far.
  have habove : ∀ k : ℤ, (n : ℤ) + 1 ≤ k → unit / 2 < |x - k * unit| := by
    intro k hk
    have hk' : ((n : ℚ) + 1) * unit ≤ k * unit :=
      mul_le_mul_of_nonneg_right (by exact_mod_cast hk) hunit.le
    rw [abs_sub_comm]
    exact lt_of_lt_of_le (by linarith) (le_abs_self _)
  have hbelow : ∀ k : ℤ, k + 1 ≤ (n : ℤ) → x - (n : ℤ) * unit + unit ≤ x - k * unit := by
    intro k hk
    have hk' : ((k : ℚ) + 1) * unit ≤ (n : ℤ) * unit :=
      mul_le_mul_of_nonneg_right (by exact_mod_cast hk) hunit.le
    linarith
  constructor
  · intro k
    rcases lt_trichotomy k n with hk | rfl | hk
    · have hdistance := hbelow k (by omega)
      have hnear := (abs_le.1 hself).1
      exact hself.trans (le_trans (by linarith) (le_abs_self _))
    · exact le_rfl
    · exact hself.trans (habove k (by omega)).le
  · intro k hk
    have hk' : |x - k * unit| ≤ unit / 2 := hk.trans_le hself
    have hle : k ≤ n := by
      by_contra hlt
      exact absurd hk' (not_le.2 (habove k (by omega)))
    -- What is as near as the multiple itself is not negative, since the number is not.
    have hnonneg : 0 ≤ k := by
      by_contra hneg
      have hk'' : (k : ℚ) * unit ≤ -1 * unit :=
        mul_le_mul_of_nonneg_right (by exact_mod_cast (by omega : k ≤ -1)) hunit.le
      have := (abs_le.1 hk').2
      linarith
    rw [abs_of_nonneg hnonneg, abs_of_nonneg (Int.natCast_nonneg n)]
    exact hle

/-- Rounding is the same on both sides of zero. -/
theorem neg (h : IsNearestMultiple unit x m) : IsNearestMultiple unit (-x) (-m) := by
  have hmirror : ∀ k : ℤ, |-x - k * unit| = |x - (-k : ℤ) * unit| := by
    intro k
    rw [← abs_neg]
    congr 1
    push_cast
    ring
  constructor
  · intro k
    rw [hmirror, hmirror, neg_neg]
    exact h.nearest (-k)
  · intro k hk
    rw [hmirror, hmirror, neg_neg] at hk
    rw [← abs_neg, abs_neg m]
    exact h.away (-k) hk

/-- There is only one such multiple. -/
theorem unique (hunit : 0 < unit) (h : IsNearestMultiple unit x m)
    (h' : IsNearestMultiple unit x m') : m = m' := by
  have hsame : |x - m * unit| = |x - m' * unit| := le_antisymm (h.nearest m') (h'.nearest m)
  have habs : |m| = |m'| := le_antisymm (h'.away m hsame) (h.away m' hsame.symm)
  rcases abs_eq_abs.1 habs with heq | hneg
  · exact heq
  · -- Opposite multiples are as near only to zero, to which zero is nearer.
    rcases abs_eq_abs.1 hsame with heq | hopposite
    · have hprod : (m : ℚ) * unit = m' * unit := by linarith
      exact_mod_cast mul_right_cancel₀ hunit.ne' hprod
    · have hx : x = 0 := by
        rw [hneg] at hopposite
        push_cast at hopposite
        linarith
      have hzero := h'.nearest 0
      rw [hx] at hzero
      simp only [Int.cast_zero, zero_mul, sub_zero, abs_zero, zero_sub, abs_neg, abs_nonpos_iff,
        mul_eq_zero, Int.cast_eq_zero, hunit.ne', or_false] at hzero
      rw [hneg, hzero, neg_zero]

/-- Of two numbers the greater one rounds to the greater multiple. -/
theorem mono (hunit : 0 < unit) {y : ℚ} (h : IsNearestMultiple unit x m)
    (h' : IsNearestMultiple unit y m') (hxy : x ≤ y) : m ≤ m' := by
  rcases hxy.eq_or_lt with rfl | hlt
  · exact (h.unique hunit h').le
  · -- Otherwise the one is not below the middle of both multiples and the other not above.
    by_contra hgt
    have hm : (m' : ℚ) * unit < m * unit :=
      mul_lt_mul_of_pos_right (by exact_mod_cast not_le.1 hgt) hunit
    have hx : (m' : ℚ) * unit + m * unit ≤ 2 * x := by
      have hnear := sq_le_sq.2 (h.nearest m')
      nlinarith
    have hy : 2 * y ≤ (m' : ℚ) * unit + m * unit := by
      have hnear := sq_le_sq.2 (h'.nearest m)
      nlinarith
    linarith

/-- A multiple is nearest to itself. -/
theorem self (hunit : 0 < unit) (m : ℤ) : IsNearestMultiple unit (m * unit) m := by
  constructor
  · intro k
    rw [sub_self, abs_zero]
    exact abs_nonneg _
  · intro k hk
    rw [sub_self, abs_zero, abs_eq_zero, sub_eq_zero] at hk
    have heq : (m : ℚ) = k := mul_right_cancel₀ hunit.ne' hk
    rw [Int.cast_inj.1 heq]

end IsNearestMultiple

/-- A quotient that is rounded up from the half on lies at most half below and less than half
above. -/
theorem roundDivUp_bounds (num : ℕ) {den : ℕ} (hden : 0 < den) :
    2 * (roundDivUp num den * den) ≤ 2 * num + den ∧
      2 * num + den < 2 * ((roundDivUp num den + 1) * den) := by
  have hdiv := Nat.div_add_mod' num den
  have hmod := Nat.mod_lt num hden
  unfold roundDivUp
  split <;> simp only [Nat.add_mul, Nat.one_mul] <;> omega

/-! ## Decimals -/

theorem lt_pow_digitCount (n : ℕ) : n < 10 ^ digitCount n :=
  (digitCount_le_iff Nat.length_toDigits_pos).1 le_rfl

theorem pow_le_of_digitCount {n : ℕ} (hn : 0 < n) : 10 ^ (digitCount n - 1) ≤ n := by
  rcases Nat.eq_zero_or_pos (digitCount n - 1) with hzero | hpos
  · rw [hzero]
    exact hn
  · by_contra hlt
    have := (digitCount_le_iff hpos).2 (not_le.1 hlt)
    omega

namespace Decimal

/-- The number that a decimal denotes without its sign. -/
def magnitude (d : Decimal) : ℚ := Digits.value ⟨d.digits, d.exponent⟩

/-- The number that a decimal denotes. -/
def value (d : Decimal) : ℚ := if d.negative then -d.magnitude else d.magnitude

/-- How often a power of ten goes into a decimal without its sign, halves up. -/
def multiple (d : Decimal) (exponent : ℤ) : ℕ :=
  let shift := d.exponent - exponent
  if shift ≥ 0 then d.digits * Nat.pow 10 shift.toNat
  else roundDivUp d.digits (Nat.pow 10 (-shift).toNat)

theorem magnitude_eq (d : Decimal) : d.magnitude = d.digits * (10 : ℚ) ^ d.exponent := rfl

theorem magnitude_mk (negative : Bool) (d : Digits) :
    magnitude ⟨negative, d.digits, d.exponent⟩ = d.value := rfl

theorem magnitude_nonneg (d : Decimal) : 0 ≤ d.magnitude :=
  mul_nonneg (Nat.cast_nonneg _) (zpow_nonneg (by norm_num) _)

/-- The digits are multiplied to get to a lower exponent, and divided to get to a higher one. -/
theorem multiple_cases (d : Decimal) (exponent : ℤ) :
    (∃ k : ℕ, d.exponent = exponent + k ∧ d.multiple exponent = d.digits * 10 ^ k) ∨
      ∃ k : ℕ, exponent = d.exponent + k ∧ d.multiple exponent = roundDivUp d.digits (10 ^ k) := by
  unfold multiple
  simp only [Nat.pow_eq]
  split
  · rename_i hshift
    obtain ⟨k, hk⟩ := Int.eq_ofNat_of_zero_le hshift
    exact .inl ⟨k, by omega, by rw [hk, Int.toNat_natCast]⟩
  · rename_i hshift
    obtain ⟨k, hk⟩ := Int.eq_ofNat_of_zero_le (Int.neg_nonneg_of_nonpos (not_le.1 hshift).le)
    exact .inr ⟨k, by omega, by rw [hk, Int.toNat_natCast]⟩

/-- The multiple is the nearest one. -/
theorem isNearestMultiple_multiple (d : Decimal) (exponent : ℤ) :
    IsNearestMultiple (10 ^ exponent) d.magnitude (d.multiple exponent) := by
  have hten : (10 : ℚ) ≠ 0 := by norm_num
  have hunit : (0 : ℚ) < 10 ^ exponent := zpow_pos (by norm_num) _
  rcases d.multiple_cases exponent with ⟨k, hexponent, hmultiple⟩ | ⟨k, hexponent, hmultiple⟩
  · have hvalue : d.magnitude = ((d.digits * 10 ^ k : ℕ) : ℤ) * (10 : ℚ) ^ exponent := by
      rw [magnitude_eq, hexponent, zpow_add₀ hten, zpow_natCast]
      push_cast
      ring
    rw [hmultiple, hvalue]
    exact .self hunit _
  · have hden : 0 < 10 ^ k := Nat.pow_pos (by norm_num)
    obtain ⟨hlow, hhigh⟩ := roundDivUp_bounds d.digits hden
    -- Both bounds are those of the quotient, measured in the unit.
    have hvalue : d.magnitude * (10 ^ k : ℕ) = d.digits * (10 : ℚ) ^ exponent := by
      rw [magnitude_eq, hexponent, zpow_add₀ hten, zpow_natCast]
      push_cast
      ring
    have hden' : (0 : ℚ) < (10 ^ k : ℕ) := by exact_mod_cast hden
    rw [hmultiple]
    revert hlow hhigh hvalue hden'
    generalize roundDivUp d.digits (10 ^ k) = n
    generalize 10 ^ k = den
    generalize (10 : ℚ) ^ exponent = unit at hunit ⊢
    intro hlow hhigh hvalue hden'
    have hlow' : (2 : ℚ) * (n * den) ≤ 2 * d.digits + den := by exact_mod_cast hlow
    have hhigh' : (2 : ℚ) * d.digits + den < 2 * ((n + 1) * den) := by exact_mod_cast hhigh
    refine .of_bounds hunit ?_ ?_ d.magnitude_nonneg
    · refine le_of_mul_le_mul_right ?_ hden'
      have hscaled := mul_le_mul_of_nonneg_right hlow' hunit.le
      linarith
    · refine lt_of_mul_lt_mul_right ?_ hden'.le
      have hscaled := mul_lt_mul_of_pos_right hhigh' hunit
      linarith

/-! ## Limits -/

/-- A decimal that is worth a power of the unit has a multiple with as many digits. -/
theorem le_multiple {d : Decimal} (hd : 0 < d.digits) {exponent : ℤ} {k : ℕ}
    (h : (k : ℤ) < digitCount d.digits + (d.exponent - exponent)) :
    10 ^ k ≤ d.multiple exponent := by
  have hdigits := pow_le_of_digitCount hd
  have hcount : 0 < digitCount d.digits := Nat.length_toDigits_pos
  rcases d.multiple_cases exponent with ⟨shift, hexponent, hmultiple⟩ | ⟨shift, hexponent, hmultiple⟩
  · calc 10 ^ k ≤ 10 ^ (digitCount d.digits - 1 + shift) :=
          Nat.pow_le_pow_right (by norm_num) (by omega)
      _ = 10 ^ (digitCount d.digits - 1) * 10 ^ shift := Nat.pow_add ..
      _ ≤ d.digits * 10 ^ shift := Nat.mul_le_mul_right _ hdigits
      _ = d.multiple exponent := hmultiple.symm
  · have hprod : 10 ^ k * 10 ^ shift ≤ d.digits :=
      calc 10 ^ k * 10 ^ shift = 10 ^ (k + shift) := (Nat.pow_add ..).symm
        _ ≤ 10 ^ (digitCount d.digits - 1) := Nat.pow_le_pow_right (by norm_num) (by omega)
        _ ≤ d.digits := hdigits
    have hfloor : 10 ^ k ≤ d.digits / 10 ^ shift :=
      (Nat.le_div_iff_mul_le (Nat.pow_pos (by norm_num))).2 hprod
    rw [hmultiple]
    unfold roundDivUp
    split
    · exact hfloor
    · exact hfloor.trans (Nat.le_succ _)

/-- A decimal below a tenth of the unit rounds to zero. -/
theorem multiple_eq_zero {d : Decimal} {exponent : ℤ}
    (h : (digitCount d.digits : ℤ) + (d.exponent - exponent) < 0) : d.multiple exponent = 0 := by
  have hdigits := lt_pow_digitCount d.digits
  rcases d.multiple_cases exponent with ⟨shift, hexponent, hmultiple⟩ | ⟨shift, hexponent, hmultiple⟩
  · omega
  · have hten : 10 * d.digits < 10 ^ shift :=
      calc 10 * d.digits < 10 * 10 ^ digitCount d.digits := by omega
        _ = 10 ^ (digitCount d.digits + 1) := (Nat.pow_succ').symm
        _ ≤ 10 ^ shift := Nat.pow_le_pow_right (by norm_num) (by omega)
    have hlt : d.digits < 10 ^ shift := by omega
    rw [hmultiple, roundDivUp, Nat.mod_eq_of_lt hlt, Nat.div_eq_of_lt hlt, if_pos (by omega)]

theorem multiple_of_zero {d : Decimal} (hd : d.digits = 0) (exponent : ℤ) :
    d.multiple exponent = 0 := by
  unfold multiple roundDivUp
  simp [hd]

/-- The first digit of a multiple does not stand much higher than that of the decimal. -/
theorem exponent_le {d : Decimal} {exponent bound : ℤ} (hexponent : exponent ≤ bound)
    (hsmall : 2 * d.magnitude < 10 ^ (bound + 1)) :
    exponent + digitCount (d.multiple exponent) - 1 ≤ bound := by
  rcases Nat.eq_zero_or_pos (d.multiple exponent) with hzero | hpos
  · have hcount : digitCount 0 = 1 := rfl
    rw [hzero, hcount]
    omega
  · have hunit : (0 : ℚ) < 10 ^ exponent := zpow_pos (by norm_num) _
    -- The multiple is at most twice the decimal, since it is no farther from it than zero is.
    have hnear := (isNearestMultiple_multiple d exponent).nearest 0
    rw [Int.cast_zero, zero_mul, sub_zero, abs_of_nonneg d.magnitude_nonneg,
      Int.cast_natCast] at hnear
    have htwice := (abs_le.1 hnear).1
    have hcount : 0 < digitCount (d.multiple exponent) := Nat.length_toDigits_pos
    have hfirst : ((10 ^ (digitCount (d.multiple exponent) - 1) : ℕ) : ℚ) ≤ d.multiple exponent := by
      exact_mod_cast pow_le_of_digitCount hpos
    have hpower : (10 : ℚ) ^ (exponent + ((digitCount (d.multiple exponent) - 1 : ℕ) : ℤ)) <
        10 ^ (bound + 1) := by
      calc (10 : ℚ) ^ (exponent + ((digitCount (d.multiple exponent) - 1 : ℕ) : ℤ))
          = ((10 ^ (digitCount (d.multiple exponent) - 1) : ℕ) : ℚ) * 10 ^ exponent := by
            rw [zpow_add₀ (by norm_num), zpow_natCast, mul_comm]
            push_cast
            ring
        _ ≤ d.multiple exponent * 10 ^ exponent := mul_le_mul_of_nonneg_right hfirst hunit.le
        _ ≤ 2 * d.magnitude := by linarith
        _ < 10 ^ (bound + 1) := hsmall
    have hlt := (zpow_lt_zpow_iff_right₀ (by norm_num : (1 : ℚ) < 10)).1 hpower
    omega

/-- **A decimal rounds to the nearest multiple of a power of ten**, unless that has too many
digits. -/
theorem quantize?_eq (d : Decimal) {exponent : ℤ} (hexponent : exponent ≤ maxExponent)
    (hsmall : 2 * d.magnitude < 10 ^ (maxExponent + 1)) :
    d.quantize? exponent = if d.multiple exponent < 10 ^ maxDigits
      then some ⟨d.negative, d.multiple exponent, exponent⟩ else none := by
  have hlimit : (digitCount (d.multiple exponent) > maxDigits ||
      exponent + digitCount (d.multiple exponent) - 1 > maxExponent) =
        !decide (d.multiple exponent < 10 ^ maxDigits) := by
    have hcount := @digitCount_le_iff (d.multiple exponent) maxDigits (by decide)
    have hplace := exponent_le hexponent hsmall
    rw [decide_eq_false (not_lt.2 hplace), Bool.or_false, ← decide_not]
    exact decide_eq_decide.2 (not_le.symm.trans (not_congr hcount))
  unfold quantize?
  by_cases hd : d.digits = 0
  · rw [if_pos hd, multiple_of_zero hd, if_pos (Nat.pow_pos (by norm_num))]
  rw [if_neg hd]
  simp only
  split
  · rename_i hsize
    have hle := le_multiple (Nat.pos_of_ne_zero hd) hsize
    rw [if_neg (not_lt.2 hle)]
  · split
    · rename_i hsize
      rw [multiple_eq_zero hsize, if_pos (Nat.pow_pos (by norm_num))]
    · change (if (decide (digitCount (d.multiple exponent) > maxDigits) ||
        decide (exponent + digitCount (d.multiple exponent) - 1 > maxExponent)) = true then none
          else some (⟨d.negative, d.multiple exponent, exponent⟩ : Decimal)) = _
      rw [hlimit]
      by_cases hfits : d.multiple exponent < 10 ^ maxDigits <;> simp [hfits]

/-! ## Integers among decimals -/

theorem value_of_magnitude {d : Decimal} {n : ℕ} (h : (n : ℚ) = d.magnitude) :
    ((if d.negative then -(n : ℤ) else n : ℤ) : ℚ) = d.value := by
  unfold value
  split <;> simp [h]

/-- A decimal is taken for an integer only if it denotes it. -/
theorem value_of_toInt? {d : Decimal} {i : ℤ} (h : d.toInt? = some i) : (i : ℚ) = d.value := by
  unfold toInt? at h
  simp only [Nat.pow_eq] at h
  split at h
  · rename_i hzero
    cases h
    unfold value
    rw [magnitude_eq, hzero]
    simp
  · split at h
    · rename_i hwhole
      cases h
      obtain ⟨k, hk⟩ := Int.eq_ofNat_of_zero_le hwhole
      apply value_of_magnitude
      rw [magnitude_eq, hk, Int.toNat_natCast, zpow_natCast]
      push_cast
      rfl
    · rename_i hplaces
      split at h
      · rename_i hdvd
        cases h
        obtain ⟨k, hk⟩ : ∃ k : ℕ, d.exponent = -k := ⟨(-d.exponent).toNat, by omega⟩
        rw [hk, neg_neg, Int.toNat_natCast] at hdvd ⊢
        apply value_of_magnitude
        rw [magnitude_eq, hk, zpow_neg, zpow_natCast, Nat.cast_div (Nat.dvd_of_mod_eq_zero hdvd) (by positivity)]
        push_cast
        rfl
      · cases h

/-- A decimal is taken for the integer that it denotes, if it denotes one. -/
theorem toInt?_eq_some_iff {d : Decimal} {i : ℤ} : d.toInt? = some i ↔ (i : ℚ) = d.value := by
  refine ⟨value_of_toInt?, fun h => ?_⟩
  cases hint : d.toInt? with
  | some j => rw [Int.cast_inj.1 (h.trans (value_of_toInt? hint).symm)]
  | none =>
    -- The places are not all zero, so the decimal is no integer.
    exfalso
    unfold toInt? at hint
    simp only [Nat.pow_eq] at hint
    split at hint
    · cases hint
    · split at hint
      · cases hint
      · rename_i hplaces
        split at hint
        · cases hint
        · rename_i hdvd
          obtain ⟨k, hk⟩ : ∃ k : ℕ, d.exponent = -k := ⟨(-d.exponent).toNat, by omega⟩
          rw [hk, neg_neg, Int.toNat_natCast] at hdvd
          have hpower : (0 : ℚ) < 10 ^ k := by positivity
          have habs : (i.natAbs : ℚ) = d.magnitude := by
            have hvalue : |(i : ℚ)| = d.magnitude := by
              rw [h]
              unfold value
              split
              · rw [abs_neg, abs_of_nonneg d.magnitude_nonneg]
              · rw [abs_of_nonneg d.magnitude_nonneg]
            rw [Nat.cast_natAbs, Int.cast_abs, hvalue]
          have hdigits : i.natAbs * 10 ^ k = d.digits := by
            rw [magnitude_eq, hk, zpow_neg, zpow_natCast, ← div_eq_mul_inv,
              eq_div_iff hpower.ne'] at habs
            exact_mod_cast habs
          exact hdvd (by rw [← hdigits, Nat.mul_mod_left])

end Decimal

end Workgraph
