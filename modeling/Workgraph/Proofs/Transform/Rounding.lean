import Workgraph.Proofs.Transform.Defects
import Workgraph.Proofs.Value.NumberText
/-!
# Rounding values

The decimal that the text of a number spells is rounded to the nearest multiple of a power of ten,
of two such multiples to the one farther from zero. The result is the integer that the multiple is,
or the binary64 number nearest to it, unless the multiple has more than 28 digits
(`Transform.RoundsTo`). Integers round to integers. To round one of these again gives it back,
unless it has more digits than are converted, as an integer of 4300 digits has that is rounded up to
the next power of ten (`Transform.round_half_up`).
-/

namespace Workgraph

/-! ## Decimals of numbers -/

/-- Near a count below a power of two there is nothing above a power of ten. -/
theorem Binary64.value_lt_pow {units width : ℕ} (hunits : 0 < units)
    (hrange : units < Nat.pow 2 width * oneUnit) {x : ℚ} (h : Near units (x * oneUnit)) :
    x < 10 ^ (width + 1) := by
  have hvalue := value_lt_of_near hunits hrange h
  calc x < 2 * (Nat.pow 2 width : ℕ) := hvalue
    _ = 2 ^ (width + 1) := by rw [pow_succ', Nat.pow_eq, Nat.cast_pow, Nat.cast_ofNat]
    _ ≤ 10 ^ (width + 1) := pow_le_pow_left₀ (by norm_num) (by norm_num) _

namespace Decimal

theorem two_mul_lt {x : ℚ} {k : ℕ} (hx : x < 10 ^ k) (hk : (k : ℤ) ≤ maxExponent) :
    2 * x < 10 ^ (maxExponent + 1) := by
  have hten : (1 : ℚ) < 10 := by norm_num
  have hpower : (0 : ℚ) < 10 ^ k := pow_pos (by norm_num) k
  calc 2 * x < 10 ^ k * 10 := by linarith
    _ = 10 ^ ((k : ℤ) + 1) := by rw [zpow_add_one₀ (by norm_num), zpow_natCast]
    _ ≤ 10 ^ (maxExponent + 1) := zpow_le_zpow_right₀ hten.le (by omega)

theorem magnitude_ofInt (i : ℤ) : (ofInt i).magnitude = i.natAbs := by
  rw [magnitude_eq, ofInt, zpow_zero, mul_one]

theorem value_ofInt (i : ℤ) : (ofInt i).value = i := by
  unfold value
  rw [magnitude_ofInt, Nat.cast_natAbs, Int.cast_abs]
  rcases lt_or_ge i 0 with hneg | hnonneg
  · have hcast : (i : ℚ) < 0 := by exact_mod_cast hneg
    simp [ofInt, hneg, abs_of_neg hcast]
  · have hcast : (0 : ℚ) ≤ i := by exact_mod_cast hnonneg
    simp [ofInt, not_lt.2 hnonneg, abs_of_nonneg hcast]

/-- The multiple of a power of ten to which a decimal rounds, with its sign. -/
def signedMultiple (d : Decimal) (exponent : ℤ) : ℤ :=
  if d.negative then -(d.multiple exponent : ℤ) else d.multiple exponent

theorem isNearestMultiple_signedMultiple (d : Decimal) (exponent : ℤ) :
    IsNearestMultiple (10 ^ exponent) d.value (d.signedMultiple exponent) := by
  have hnearest := d.isNearestMultiple_multiple exponent
  unfold value signedMultiple
  split
  · exact hnearest.neg
  · exact hnearest

theorem natAbs_signedMultiple (d : Decimal) (exponent : ℤ) :
    (d.signedMultiple exponent).natAbs = d.multiple exponent := by
  unfold signedMultiple
  split <;> simp

/-- The rounded decimal denotes the multiple. -/
theorem value_quantized (d : Decimal) (exponent : ℤ) :
    value ⟨d.negative, d.multiple exponent, exponent⟩ =
      d.signedMultiple exponent * 10 ^ exponent := by
  unfold value signedMultiple
  rw [magnitude_eq]
  split <;> push_cast <;> ring

end Decimal

namespace Number

theorem exists_decimal {n : Number} (hnan : n ≠ .real .nan)
    (hinfinite : ∀ negative, n ≠ .real (.infinite negative)) : ∃ d, n.decimal? = some d := by
  cases n with
  | int i => exact ⟨_, rfl⟩
  | real x =>
    cases x with
    | nan => exact absurd rfl hnan
    | infinite negative => exact absurd rfl (hinfinite negative)
    | finite negative units hunits =>
      unfold decimal? Decimal.ofReal?
      dsimp only
      split <;> exact ⟨_, rfl⟩

/-- A number that has a text is not beyond the limits of decimals. -/
theorem two_mul_magnitude_lt {n : Number} {d : Decimal} (hd : n.decimal? = some d)
    (hshort : (Value.ofNumber n).hasLongInteger = false) :
    2 * d.magnitude < 10 ^ (Decimal.maxExponent + 1) := by
  cases n with
  | int i =>
    cases hd
    have hlt : i.natAbs < 10 ^ maxNumeralDigits := by
      rw [← not_le, ← Value.hasLongInteger_int]
      exact Bool.eq_false_iff.1 hshort
    rw [Decimal.magnitude_ofInt]
    exact Decimal.two_mul_lt (by exact_mod_cast hlt) (by decide)
  | real x =>
    cases x with
    | nan => cases hd
    | infinite negative => cases hd
    | finite negative units hunits =>
      unfold decimal? Decimal.ofReal? at hd
      simp only at hd
      split at hd
      · cases hd
        have hmagnitude : (⟨negative, 0, 0⟩ : Decimal).magnitude = 0 := by
          rw [Decimal.magnitude_eq, Nat.cast_zero, zero_mul]
        rw [hmagnitude]
        exact Decimal.two_mul_lt (pow_pos (by norm_num) 0) (by decide)
      · rename_i hzero
        cases hd
        have hpos := Nat.pos_of_ne_zero hzero
        have hrange := hunits.1
        rw [Binary64.overflowUnits_eq] at hrange
        have hvalue := Binary64.value_lt_pow hpos hrange (Binary64.near_shortest hpos)
        rw [Decimal.magnitude_mk]
        exact Decimal.two_mul_lt hvalue (by decide)

end Number

/-! ## Results of rounding -/

namespace Transform

/-- What rounding a decimal to a number of places comes to. -/
inductive RoundsTo (places : ℤ) (x : ℚ) : Except Fault Value → Prop
  | int {m i : ℤ} (hnearest : IsNearestMultiple (10 ^ (-places)) x m)
      (hdigits : m.natAbs < 10 ^ Decimal.maxDigits) (hvalue : (i : ℚ) = m * 10 ^ (-places)) :
      RoundsTo places x (.ok (.int i))
  | real {m : ℤ} (hnearest : IsNearestMultiple (10 ^ (-places)) x m)
      (hdigits : m.natAbs < 10 ^ Decimal.maxDigits)
      (hvalue : ∀ i : ℤ, (i : ℚ) ≠ m * 10 ^ (-places)) :
      RoundsTo places x (.ok (.real (Binary64.ofDecimal (m < 0) m.natAbs (-places))))
  | refused {m : ℤ} (hnearest : IsNearestMultiple (10 ^ (-places)) x m)
      (hdigits : 10 ^ Decimal.maxDigits ≤ m.natAbs) : RoundsTo places x unroundable

theorem roundedTo_decimal {n : Number} {d : Decimal} (hd : n.decimal? = some d) (exponent : ℤ) :
    roundedTo exponent n = match d.quantize? exponent with
      | none => unroundable
      | some q =>
        match q.toInt? with
        | some i => .ok (.int i)
        | none => .ok (.real q.toReal) := by
  cases n with
  | int i =>
    cases hd
    rfl
  | real x =>
    have hreal : Decimal.ofReal? x = some d := hd
    unfold roundedTo
    dsimp only
    generalize Decimal.ofReal? x = found at hreal
    subst hreal
    rfl

/-- A number rounds as its decimal does. -/
theorem roundsTo_roundedTo {n : Number} {d : Decimal} (hd : n.decimal? = some d)
    (hshort : (Value.ofNumber n).hasLongInteger = false) {places : ℤ}
    (hplaces : -places ≤ Decimal.maxExponent) :
    RoundsTo places d.value (roundedTo (-places) n) := by
  have hnearest := d.isNearestMultiple_signedMultiple (-places)
  have habs := d.natAbs_signedMultiple (-places)
  have hvalue := d.value_quantized (-places)
  rw [roundedTo_decimal hd, d.quantize?_eq hplaces (Number.two_mul_magnitude_lt hd hshort)]
  by_cases hdigits : d.multiple (-places) < 10 ^ Decimal.maxDigits
  · rw [if_pos hdigits]
    rw [← habs] at hdigits
    simp only
    cases hint : Decimal.toInt? ⟨d.negative, d.multiple (-places), -places⟩ with
    | some i =>
      have hi := Decimal.toInt?_eq_some_iff.1 hint
      exact .int hnearest hdigits (hi.trans hvalue)
    | none =>
      have hno : ∀ i : ℤ, (i : ℚ) ≠ d.signedMultiple (-places) * 10 ^ (-places) := by
        intro i hi
        rw [Decimal.toInt?_eq_some_iff.2 (hi.trans hvalue.symm)] at hint
        cases hint
      -- The multiple is not zero, so it has the sign of the decimal.
      have hsign : decide (d.signedMultiple (-places) < 0) = d.negative := by
        have hzero : d.signedMultiple (-places) ≠ 0 := by
          intro hzero
          exact hno 0 (by rw [hzero]; simp)
        unfold Decimal.signedMultiple at hzero ⊢
        cases d.negative <;> simp at hzero ⊢
        omega
      have hreal := RoundsTo.real hnearest hdigits hno
      rwa [habs, hsign] at hreal
  · rw [if_neg hdigits]
    rw [← habs, not_lt] at hdigits
    exact .refused hnearest hdigits

/-! ## Rounding by the parameters -/

section Places

variable {params : Entries Value} {v : Value} {n : Number} {places : ℤ}

theorem placesOf_int (h : params.get? "decimalPlaces" = some (.int places)) :
    placesOf params = .ok places := by
  have hparam : param params "decimalPlaces" (.int 0) = .int places := by
    unfold param
    rw [h]
    by_cases hzero : places = 0
    · rw [hzero]
      rfl
    · simp [Value.isPresent, hzero]
  have hreading := placesOf_reading params
  rw [hparam] at hreading
  exact hreading.eq_ok (.int places)

theorem placesExponent_eq (hleast : -999999 ≤ places) (hmost : places ≤ 999999) :
    placesExponent places = .ok (-places) := by
  unfold placesExponent Decimal.maxExponent Decimal.minExponent
  rw [if_neg (by omega), if_neg (by omega), max_eq_left (by omega)]

/-- Rounding to integral places is rounding to a power of ten. -/
theorem round_eq (context : Context) (hnumber : v.toNumber? = some n)
    (hplaces : params.get? "decimalPlaces" = some (.int places)) (hleast : -999999 ≤ places)
    (hmost : places ≤ 999999) : applyNamed "round" params context v =
      if (Value.ofNumber n).hasLongInteger then .error (.defect .longInteger)
      else roundedTo (-places) n := by
  change roundOf v params = _
  unfold roundOf
  rw [hnumber]
  simp only [placesOf_int hplaces, bind, Except.bind, placesExponent_eq hleast hmost]

/-- A number that has a text rounds as its decimal does. -/
theorem roundsTo_round (context : Context) {d : Decimal} (hnumber : v.toNumber? = some n)
    (hd : n.decimal? = some d) (hshort : (Value.ofNumber n).hasLongInteger = false)
    (hplaces : params.get? "decimalPlaces" = some (.int places)) (hleast : -999999 ≤ places)
    (hmost : places ≤ 999999) :
    RoundsTo places d.value (applyNamed "round" params context v) := by
  have hexponent : -places ≤ Decimal.maxExponent := by
    unfold Decimal.maxExponent
    omega
  rw [round_eq context hnumber hplaces hleast hmost, hshort]
  exact roundsTo_roundedTo hd hshort hexponent

end Places

/-! ## Rounding integers -/

/-- The multiples to which integers round are integers. -/
theorem exists_int_of_isNearestMultiple {places i m : ℤ}
    (h : IsNearestMultiple (10 ^ (-places)) i m) : ∃ q : ℤ, (q : ℚ) = m * 10 ^ (-places) := by
  rcases le_or_gt places 0 with hleft | hright
  · obtain ⟨k, hk⟩ := Int.eq_ofNat_of_zero_le (Int.neg_nonneg_of_nonpos hleft)
    refine ⟨m * 10 ^ k, ?_⟩
    rw [hk, zpow_natCast]
    push_cast
    rfl
  · -- Behind the point an integer is a multiple itself.
    obtain ⟨k, rfl⟩ := Int.eq_ofNat_of_zero_le hright.le
    have hunit : (0 : ℚ) < 10 ^ (-(k : ℤ)) := zpow_pos (by norm_num) _
    have hself : ((i * 10 ^ k : ℤ) : ℚ) * 10 ^ (-(k : ℤ)) = i := by
      rw [zpow_neg, zpow_natCast]
      push_cast
      exact mul_inv_cancel_right₀ (pow_ne_zero k (by norm_num)) _
    have hnearest := IsNearestMultiple.self hunit (i * 10 ^ k)
    rw [hself] at hnearest
    rw [h.unique hunit hnearest]
    exact ⟨i, hself.symm⟩

/-- An integer rounds to an integer, if at all. -/
theorem RoundsTo.eq_int {places i : ℤ} {w : Value} (h : RoundsTo places i (.ok w)) :
    ∃ q m : ℤ, w = .int q ∧ IsNearestMultiple (10 ^ (-places)) i m ∧
      m.natAbs < 10 ^ Decimal.maxDigits ∧ (q : ℚ) = m * 10 ^ (-places) := by
  cases h with
  | int hnearest hdigits hvalue => exact ⟨_, _, rfl, hnearest, hdigits, hvalue⟩
  | real hnearest hdigits hvalue =>
    obtain ⟨q, hq⟩ := exists_int_of_isNearestMultiple hnearest
    exact absurd hq (hvalue q)

/-- A decimal whose nearest multiple is a given integer rounds to it. -/
theorem RoundsTo.eq_of_nearest {places m q : ℤ} {x : ℚ} {result : Except Fault Value}
    (h : RoundsTo places x result) (hm : IsNearestMultiple (10 ^ (-places)) x m)
    (hdigits : m.natAbs < 10 ^ Decimal.maxDigits) (hq : (q : ℚ) = m * 10 ^ (-places)) :
    result = .ok (.int q) := by
  have hunit : (0 : ℚ) < 10 ^ (-places) := zpow_pos (by norm_num) _
  cases h with
  | int hnearest _ hvalue =>
    rw [hnearest.unique hunit hm, ← hq] at hvalue
    rw [Int.cast_inj.1 hvalue]
  | real hnearest _ hvalue =>
    rw [hnearest.unique hunit hm] at hvalue
    exact absurd hq (hvalue q)
  | refused hnearest hmany =>
    rw [hnearest.unique hunit hm] at hmany
    exact absurd hdigits (not_lt.2 hmany)

/-- A multiple that is not refused rounds to itself. -/
theorem RoundsTo.eq_self {places q m : ℤ} {result : Except Fault Value}
    (h : RoundsTo places q result) (hdigits : m.natAbs < 10 ^ Decimal.maxDigits)
    (hq : (q : ℚ) = m * 10 ^ (-places)) : result = .ok (.int q) := by
  have hunit : (0 : ℚ) < 10 ^ (-places) := zpow_pos (by norm_num) _
  have hself := IsNearestMultiple.self hunit m
  rw [← hq] at hself
  exact h.eq_of_nearest hself hdigits hq

/-- Rounding does not lead beyond a power of ten. -/
theorem mul_le_pow_of_isNearestMultiple {places m : ℤ} {x : ℚ} {k : ℕ}
    (h : IsNearestMultiple (10 ^ (-places)) x m) (hx : x ≤ 10 ^ k) :
    (m : ℚ) * 10 ^ (-places) ≤ 10 ^ k := by
  have hunit : (0 : ℚ) < 10 ^ (-places) := zpow_pos (by norm_num) _
  have hpower : (0 : ℚ) < 10 ^ k := pow_pos (by norm_num) k
  rcases le_or_gt (-places) k with hsmall | hlarge
  · -- The power is a multiple itself.
    obtain ⟨t, ht⟩ := Int.eq_ofNat_of_zero_le (sub_nonneg.2 hsmall)
    have hself : ((10 ^ t : ℤ) : ℚ) * 10 ^ (-places) = 10 ^ k := by
      rw [Int.cast_pow, Int.cast_ofNat, ← zpow_natCast, ← zpow_natCast, ← zpow_add₀ (by norm_num)]
      congr 1
      omega
    have hnearest := IsNearestMultiple.self hunit (10 ^ t)
    rw [hself] at hnearest
    calc (m : ℚ) * 10 ^ (-places) ≤ (10 ^ t : ℤ) * 10 ^ (-places) :=
          mul_le_mul_of_nonneg_right (by exact_mod_cast h.mono hunit hnearest hx) hunit.le
      _ = 10 ^ k := hself
  · -- The power is less than half the unit.
    have hten : (10 : ℚ) ^ k * 10 ≤ 10 ^ (-places) := by
      rw [← zpow_natCast, ← zpow_add_one₀ (by norm_num)]
      exact zpow_le_zpow_right₀ (by norm_num) (by omega)
    have hzero : IsNearestMultiple (10 ^ (-places)) ((10 : ℚ) ^ k) (0 : ℕ) :=
      .of_bounds hunit (by push_cast; linarith) (by push_cast; linarith) hpower.le
    have hm : (m : ℚ) ≤ 0 := by exact_mod_cast h.mono hunit hzero hx
    exact (mul_nonpos_of_nonpos_of_nonneg hm hunit.le).trans hpower.le

/-- An integer that has a text rounds to one that has a text, or to the next power of ten. -/
theorem natAbs_of_hasLongInteger {places i m q : ℤ}
    (h : IsNearestMultiple (10 ^ (-places)) i m) (hq : (q : ℚ) = m * 10 ^ (-places))
    (hshort : (Value.int i).hasLongInteger = false) (hlong : (Value.int q).hasLongInteger = true) :
    q.natAbs = 10 ^ maxNumeralDigits := by
  have hi : i.natAbs < 10 ^ maxNumeralDigits := by
    rw [← not_le, ← Value.hasLongInteger_int]
    exact Bool.eq_false_iff.1 hshort
  have hbounds : i ≤ (10 : ℤ) ^ maxNumeralDigits ∧ -i ≤ (10 : ℤ) ^ maxNumeralDigits := by
    zify at hi
    exact ⟨(le_abs_self i).trans hi.le, (neg_le_abs i).trans hi.le⟩
  have hhigh : (q : ℚ) ≤ 10 ^ maxNumeralDigits := by
    rw [hq]
    exact mul_le_pow_of_isNearestMultiple h (by exact_mod_cast hbounds.1)
  have hlow : -(q : ℚ) ≤ 10 ^ maxNumeralDigits := by
    have hneg := mul_le_pow_of_isNearestMultiple h.neg (by exact_mod_cast hbounds.2)
    rwa [Int.cast_neg, neg_mul, ← hq] at hneg
  have habs : |q| ≤ (10 : ℤ) ^ maxNumeralDigits :=
    abs_le'.2 ⟨by exact_mod_cast hhigh, by exact_mod_cast hlow⟩
  refine le_antisymm ?_ (Value.hasLongInteger_int.1 hlong)
  zify
  exact habs

/-! ## Rounding half up -/

/-- How a value that reads as a number is rounded to a number of places. -/
structure RoundsHalfUp (round : Value → Except Fault Value) (places : ℤ) (v : Value) (n : Number) :
    Prop where
  /-- An integer with more digits than are converted has no text. -/
  longNumber : (Value.ofNumber n).hasLongInteger = true → round v = .error (.defect .longInteger)
  /-- The decimal that the text of any other finite number spells is rounded. -/
  finite : (Value.ofNumber n).hasLongInteger = false → n ≠ .real .nan →
    (∀ negative, n ≠ .real (.infinite negative)) →
      ∃ x, spelledDecimal? n.text = some x ∧ RoundsTo places x (round v)
  infinite : ∀ negative, n = .real (.infinite negative) → round v = unroundable
  nan : n = .real .nan → round v = .ok (.real .nan)
  /-- An integer rounds to an integer. That one rounds to itself, unless it is the next power of
  ten behind all integers that have a text. -/
  again : ∀ i, n = .int i → ∀ w, round v = .ok w → ∃ q : ℤ, w = .int q ∧
    round (.int q) = if q.natAbs = 10 ^ maxNumeralDigits then .error (.defect .longInteger)
      else .ok (.int q)

theorem spelledDecimal?_int (i : ℤ) : spelledDecimal? (Number.int i).text = some (i : ℚ) := by
  rw [spelledDecimal?_text]
  exact congrArg some (Decimal.value_ofInt i)

/-- An integer rounds to one that rounds to itself, but for the last power of ten. -/
theorem round_again (context : Context) {params : Entries Value} {v w : Value} {places i : ℤ}
    (hnumber : v.toNumber? = some (.int i)) (hw : applyNamed "round" params context v = .ok w)
    (hplaces : params.get? "decimalPlaces" = some (.int places)) (hleast : -999999 ≤ places)
    (hmost : places ≤ 999999) : ∃ q : ℤ, w = .int q ∧
      applyNamed "round" params context (.int q) =
        if q.natAbs = 10 ^ maxNumeralDigits then .error (.defect .longInteger)
        else .ok (.int q) := by
  -- Without a text there would be no result.
  have hshort : (Value.ofNumber (.int i)).hasLongInteger = false := by
    cases hlong : (Value.ofNumber (.int i)).hasLongInteger with
    | false => rfl
    | true =>
      rw [round_eq context hnumber hplaces hleast hmost, if_pos hlong] at hw
      cases hw
  have hrounded := roundsTo_round context hnumber rfl hshort hplaces hleast hmost
  rw [hw, Decimal.value_ofInt] at hrounded
  obtain ⟨q, m, rfl, hnearest, hdigits, hq⟩ := hrounded.eq_int
  have hself : (Value.int q).toNumber? = some (.int q) := rfl
  refine ⟨q, rfl, ?_⟩
  by_cases hlong : (Value.int q).hasLongInteger = true
  · rw [if_pos (natAbs_of_hasLongInteger hnearest hq hshort hlong)]
    exact (round_eq context hself hplaces hleast hmost).trans (if_pos hlong)
  · have hsize : q.natAbs ≠ 10 ^ maxNumeralDigits :=
      fun heq => hlong (Value.hasLongInteger_int.2 heq.ge)
    have hagain := roundsTo_round context hself rfl (Bool.eq_false_iff.2 hlong) hplaces hleast hmost
    rw [Decimal.value_ofInt] at hagain
    rw [if_neg hsize]
    exact hagain.eq_self hdigits hq

/-- **Numbers are rounded to places half up.** -/
theorem round_half_up (params : Entries Value) (context : Context) (v : Value) {n : Number}
    {places : ℤ} (hnumber : v.toNumber? = some n)
    (hplaces : params.get? "decimalPlaces" = some (.int places)) (hleast : -999999 ≤ places)
    (hmost : places ≤ 999999) :
    RoundsHalfUp (applyNamed "round" params context) places v n := by
  have hround := round_eq context hnumber hplaces hleast hmost
  constructor
  · intro hlong
    rw [hround, if_pos hlong]
  · intro hshort hnan hinfinite
    obtain ⟨d, hd⟩ := Number.exists_decimal hnan hinfinite
    refine ⟨d.value, ?_, roundsTo_round context hnumber hd hshort hplaces hleast hmost⟩
    rw [spelledDecimal?_text, hd, Option.map_some]
  · rintro negative rfl
    rw [hround]
    rfl
  · rintro rfl
    rw [hround]
    rfl
  · rintro i rfl w hw
    exact round_again context hnumber hw hplaces hleast hmost

/-- The greatest integer of a number of digits. -/
@[irreducible] def nines (k : ℕ) : ℤ := 10 ^ k - 1

theorem nines_add_one (k : ℕ) : nines k + 1 = 10 ^ k := by
  rw [nines, sub_add_cancel]

theorem two_le_nines {k : ℕ} (hk : 0 < k) : 2 ≤ nines k := by
  have hlimit : (10 : ℤ) ^ 1 ≤ 10 ^ k := pow_le_pow_right₀ (by norm_num) hk
  rw [← nines_add_one k] at hlimit
  omega

/-- The parameters that round an integer to the next power of ten behind all that have a text. -/
def farParams : Entries Value := [("decimalPlaces", .int (-maxNumeralDigits))]

/-- The greatest integer that has a text is rounded up to one that cannot be rounded. -/
theorem round_nines : (Value.int (nines maxNumeralDigits)).toNumber? =
      some (.int (nines maxNumeralDigits)) ∧
    farParams.get? "decimalPlaces" = some (.int (-maxNumeralDigits)) ∧
    applyNamed "round" farParams [] (.int (nines maxNumeralDigits)) =
      .ok (.int (nines maxNumeralDigits + 1)) ∧
    applyNamed "round" farParams [] (.int (nines maxNumeralDigits + 1)) =
      .error (.defect .longInteger) := by
  have hrounds := round_half_up farParams [] (.int (nines maxNumeralDigits)) rfl rfl
    (by decide) (by decide)
  have hlimit := nines_add_one maxNumeralDigits
  have hlarge : 2 ≤ nines maxNumeralDigits := two_le_nines (by decide)
  -- What follows holds of any integer before the power, so its digits are never computed.
  revert hrounds hlimit hlarge
  generalize nines maxNumeralDigits = i
  intro hrounds hlimit hlarge
  have hshort : (Value.int i).hasLongInteger = false := by
    rw [Bool.eq_false_iff, ne_eq, Value.hasLongInteger_int]
    zify
    rw [← hlimit, abs_of_nonneg (by omega)]
    omega
  have hunit : (10 : ℚ) ^ (-(-(maxNumeralDigits : ℤ))) = (i + 1 : ℤ) := by
    rw [neg_neg, zpow_natCast, hlimit]
    push_cast
    rfl
  have hnearest : IsNearestMultiple (10 ^ (-(-(maxNumeralDigits : ℤ)))) (i : ℚ) (1 : ℕ) := by
    have hcast : (2 : ℚ) ≤ i := by exact_mod_cast hlarge
    rw [hunit]
    push_cast
    exact .of_bounds (by linarith) (by push_cast; linarith) (by push_cast; linarith) (by linarith)
  obtain ⟨x, hx, hround⟩ := hrounds.finite hshort nofun nofun
  rw [spelledDecimal?_int] at hx
  cases hx
  have honce : applyNamed "round" farParams [] (.int i) = .ok (.int (i + 1)) :=
    hround.eq_of_nearest hnearest (by decide) (by rw [hunit, Nat.cast_one, Int.cast_one, one_mul])
  obtain ⟨q, hq, hagain⟩ := hrounds.again i rfl _ honce
  obtain rfl := Value.int.inj hq
  refine ⟨rfl, rfl, honce, ?_⟩
  rw [hagain, if_pos]
  zify
  rw [← hlimit, abs_of_nonneg (by omega)]

end Transform

end Workgraph
