import Mathlib.Tactic
import Workgraph.Number.Shortest
/-!
# Reading back what was rounded

A decimal that `Binary64.readsBack` accepts for a count of units rounds to that count, and the
decimal with the fewest digits is always such a decimal. So a number is identified by its shortest
digits (`Binary64.ofDecimal_of_near`, `Binary64.near_shortest`).
-/

namespace Workgraph

/-- A quotient rounds to an integer that is at most one half away, unless the integer is odd and the
quotient lies halfway between it and a neighbour. -/
theorem roundDiv_eq {num den m : Nat} (hden : 0 < den) (hlow : 2 * (m * den) ≤ 2 * num + den)
    (hhigh : 2 * num ≤ 2 * (m * den) + den)
    (htie : m % 2 = 1 → 2 * (m * den) ≠ 2 * num + den ∧ 2 * num ≠ 2 * (m * den) + den) :
    roundDiv num den = m := by
  obtain ⟨q, r, hr, rfl⟩ : ∃ q r, r < den ∧ num = q * den + r :=
    ⟨num / den, num % den, Nat.mod_lt _ hden, by rw [Nat.mul_comm]; exact (Nat.div_add_mod ..).symm⟩
  have hdiv : (q * den + r) / den = q := by
    rw [Nat.mul_comm, Nat.mul_add_div hden, Nat.div_eq_of_lt hr, Nat.add_zero]
  have hmod : (q * den + r) % den = r := by
    rw [Nat.mul_comm, Nat.mul_add_mod, Nat.mod_eq_of_lt hr]
  -- The integer part is the integer itself or the one below it.
  have hq : m = q ∨ m = q + 1 := by
    have hle : q ≤ m := by
      by_contra hlt
      have hprod : (m + 1) * den ≤ q * den := Nat.mul_le_mul_right den (by omega)
      rw [Nat.add_mul] at hprod
      omega
    have hge : m ≤ q + 1 := by
      by_contra hlt
      have hprod : (q + 2) * den ≤ m * den := Nat.mul_le_mul_right den (by omega)
      rw [Nat.add_mul] at hprod
      omega
    omega
  unfold roundDiv
  simp only [hdiv, hmod]
  rcases hq with rfl | rfl
  · split
    · rfl
    · split
      · omega
      · split
        · rfl
        · omega
  · rw [Nat.add_mul] at hlow hhigh htie
    split
    · omega
    · split
      · rfl
      · split
        · omega
        · rfl

namespace Digits

/-- The number that a decimal denotes. -/
def value (d : Digits) : ℚ := d.digits * (10 : ℚ) ^ d.exponent

theorem ratio_pos (d : Digits) : 0 < d.ratio.2 := by
  unfold ratio
  split
  · exact Nat.one_pos
  · exact Nat.pow_pos (by norm_num)

/-- The fraction of a decimal is its value. -/
theorem ratio_div (d : Digits) : (d.ratio.1 : ℚ) / d.ratio.2 = d.value := by
  obtain ⟨m, e⟩ := d
  unfold ratio value
  split
  · rename_i he
    obtain ⟨n, rfl⟩ := Int.eq_ofNat_of_zero_le he
    simp
  · rename_i he
    obtain ⟨n, rfl⟩ : ∃ n : Nat, e = -n := ⟨(-e).toNat, by simp only at he; omega⟩
    simp [zpow_neg, div_eq_mul_inv]

/-- Zeros at the end of the digits stand for powers of ten. -/
theorem value_shift (m k : Nat) (e : Int) : value ⟨m * 10 ^ k, e - k⟩ = value ⟨m, e⟩ := by
  simp only [value]
  rw [zpow_sub₀ (by norm_num : (10 : ℚ) ≠ 0)]
  push_cast
  field_simp
  simp

theorem value_stripZeros (n : Nat) (d : Digits) : (stripZeros n d).value = d.value := by
  induction n generalizing d with
  | zero => rfl
  | succ n ih =>
    obtain ⟨m, e⟩ := d
    unfold stripZeros
    split
    · rename_i hzero
      have hshift := value_shift (m / 10) 1 (e + 1)
      have hten : m / 10 * 10 ^ 1 = m := by
        rw [pow_one]
        exact Nat.div_mul_cancel (Nat.dvd_of_mod_eq_zero hzero.2)
      rw [hten] at hshift
      rw [ih, ← hshift]
      simp
    · rfl

end Digits

namespace Binary64

/-- The lower end of the numbers that round to a count, in quarters of the unit. -/
def lowerEnd (units : Nat) : Nat :=
  4 * units - if units = Nat.pow 2 units.log2 ∧ spacingBits units > 0
    then Nat.pow 2 (spacingBits units) else 2 * Nat.pow 2 (spacingBits units)

/-- The upper end of the numbers that round to a count, in quarters of the unit. -/
def upperEnd (units : Nat) : Nat := 4 * units + 2 * Nat.pow 2 (spacingBits units)

/-- A number of units lies among those that round to a count. -/
structure Near (units : Nat) (x : ℚ) : Prop where
  low : (lowerEnd units : ℚ) ≤ 4 * x
  high : 4 * x ≤ upperEnd units
  /-- The ends round to the neighbours if the significand is odd. -/
  ends : units / Nat.pow 2 (spacingBits units) % 2 = 1 →
    (lowerEnd units : ℚ) ≠ 4 * x ∧ 4 * x ≠ upperEnd units

theorem near_of_readsBack {units : Nat} {d : Digits} (h : readsBack units d = true) :
    Near units (d.value * oneUnit) := by
  have hpos : (0 : ℚ) < d.ratio.2 := by exact_mod_cast d.ratio_pos
  have hvalue : 4 * (d.value * oneUnit) = ((4 * d.ratio.1 * oneUnit : Nat) : ℚ) / d.ratio.2 := by
    rw [← d.ratio_div]
    push_cast
    ring
  unfold readsBack at h
  simp only at h
  split at h
  · rename_i heven
    obtain ⟨hlow, hhigh⟩ : lowerEnd units * d.ratio.2 ≤ 4 * d.ratio.1 * oneUnit ∧
        4 * d.ratio.1 * oneUnit ≤ upperEnd units * d.ratio.2 := of_decide_eq_true h
    refine ⟨?_, ?_, fun hodd => absurd heven (by omega)⟩
    · rw [hvalue, le_div_iff₀ hpos]
      exact_mod_cast hlow
    · rw [hvalue, div_le_iff₀ hpos]
      exact_mod_cast hhigh
  · obtain ⟨hlow, hhigh⟩ : lowerEnd units * d.ratio.2 < 4 * d.ratio.1 * oneUnit ∧
        4 * d.ratio.1 * oneUnit < upperEnd units * d.ratio.2 := of_decide_eq_true h
    have hlow' : (lowerEnd units : ℚ) < 4 * (d.value * oneUnit) := by
      rw [hvalue, lt_div_iff₀ hpos]
      exact_mod_cast hlow
    have hhigh' : 4 * (d.value * oneUnit) < upperEnd units := by
      rw [hvalue, div_lt_iff₀ hpos]
      exact_mod_cast hhigh
    exact ⟨hlow'.le, hhigh'.le, fun _ => ⟨hlow'.ne, hhigh'.ne⟩⟩

/-! ## Rounding to the count -/

/-- How far a quotient that is near a count is from it, in products with the denominator: half a
step, and a quarter of one below a power of two, where the spacing changes. -/
structure Within (units step num den : Nat) : Prop where
  low : 4 * (units * den) ≤ 4 * num + 2 * (step * den)
  high : 4 * num ≤ 4 * (units * den) + 2 * (step * den)
  ends : units / step % 2 = 1 → 4 * (units * den) ≠ 4 * num + 2 * (step * den) ∧
    4 * num ≠ 4 * (units * den) + 2 * (step * den)
  sharp : units = Nat.pow 2 units.log2 → spacingBits units > 0 →
    4 * (units * den) ≤ 4 * num + step * den

variable {units num den : Nat}

theorem step_le (hunits : 0 < units) : Nat.pow 2 (spacingBits units) ≤ units :=
  calc Nat.pow 2 (spacingBits units) ≤ 2 ^ units.log2 :=
        Nat.pow_le_pow_right (by norm_num) (Nat.sub_le _ _)
    _ ≤ units := Nat.log2_self_le hunits.ne'

theorem within_of_near (hunits : 0 < units) (hden : 0 < den)
    (h : Near units ((num : ℚ) / den)) :
    Within units (Nat.pow 2 (spacingBits units)) num den := by
  have hpos : (0 : ℚ) < den := by exact_mod_cast hden
  obtain ⟨hlow, hhigh, hends⟩ := h
  rw [← mul_div_assoc, le_div_iff₀ hpos] at hlow
  rw [← mul_div_assoc, div_le_iff₀ hpos] at hhigh
  simp only [← mul_div_assoc, ne_eq, eq_div_iff hpos.ne', div_eq_iff hpos.ne'] at hends
  norm_cast at hlow hhigh hends
  have hstep := step_le hunits
  have hsplit : ∀ n, (4 * units - n * Nat.pow 2 (spacingBits units)) * den =
      4 * (units * den) - n * (Nat.pow 2 (spacingBits units) * den) := by
    intro n
    rw [Nat.sub_mul, Nat.mul_assoc, Nat.mul_assoc]
  have hproduct : Nat.pow 2 (spacingBits units) * den ≤ units * den :=
    Nat.mul_le_mul_right den hstep
  have hupper : upperEnd units * den =
      4 * (units * den) + 2 * (Nat.pow 2 (spacingBits units) * den) := by
    rw [upperEnd, Nat.add_mul, Nat.mul_assoc, Nat.mul_assoc]
  have hpositive : 0 < Nat.pow 2 (spacingBits units) * den :=
    Nat.mul_pos (Nat.pow_pos (by norm_num)) hden
  rw [hupper] at hhigh hends
  by_cases hpower : units = Nat.pow 2 units.log2 ∧ spacingBits units > 0
  · have hlower : lowerEnd units * den =
        4 * (units * den) - Nat.pow 2 (spacingBits units) * den := by
      rw [lowerEnd, if_pos hpower]
      simpa using hsplit 1
    rw [hlower] at hlow hends
    exact ⟨by omega, hhigh, fun hodd => ⟨by omega, (hends hodd).2⟩, fun _ _ => by omega⟩
  · have hlower : lowerEnd units * den =
        4 * (units * den) - 2 * (Nat.pow 2 (spacingBits units) * den) := by
      rw [lowerEnd, if_neg hpower]
      exact hsplit 2
    rw [hlower] at hlow hends
    refine ⟨by omega, hhigh, fun hodd => ⟨?_, (hends hodd).2⟩, fun hunits hspacing =>
      absurd ⟨hunits, hspacing⟩ hpower⟩
    have := (hends hodd).1
    omega

/-- Where the quotient has the spacing of the count, it lies within half a step of it. -/
theorem nearestUnits_of_same (hrepresentable : Representable units) (hden : 0 < den)
    (h : Within units (Nat.pow 2 (spacingBits units)) num den)
    (hspacing : spacingBits (num / den) = spacingBits units) : nearestUnits num den = units := by
  unfold nearestUnits
  simp only [hspacing]
  obtain ⟨-, hmultiple⟩ := hrepresentable
  have hstep : 0 < Nat.pow 2 (spacingBits units) := Nat.pow_pos (by norm_num)
  revert h hmultiple hstep
  generalize Nat.pow 2 (spacingBits units) = step
  intro h hmultiple hstep
  have hcount : units / step * step = units :=
    Nat.div_mul_cancel (Nat.dvd_of_mod_eq_zero hmultiple)
  have hproduct : units / step * (den * step) = units * den := by
    rw [Nat.mul_left_comm, hcount, Nat.mul_comm]
  have hround : roundDiv num (den * step) = units / step := by
    obtain ⟨hlow, hhigh, hends, -⟩ := h
    rw [Nat.mul_comm step den] at hlow hhigh hends
    apply roundDiv_eq (Nat.mul_pos hden hstep)
    · rw [hproduct]
      omega
    · rw [hproduct]
      omega
    · intro hodd
      obtain ⟨hlower, hupper⟩ := hends hodd
      rw [hproduct]
      omega
  rw [hround, hcount]

/-- Different multiples of a step are at least one step apart. -/
theorem add_step_le {a b step : Nat} (ha : step ∣ a) (hb : step ∣ b) (h : a < b) :
    a + step ≤ b := by
  obtain ⟨m, rfl⟩ := ha
  obtain ⟨n, rfl⟩ := hb
  have hmn : m + 1 ≤ n := Nat.lt_of_mul_lt_mul_left h
  calc step * m + step = step * (m + 1) := (Nat.mul_succ step m).symm
    _ ≤ step * n := Nat.mul_le_mul_left step hmn

theorem lt_of_spacingBits_le {n k : Nat} (h : spacingBits n ≤ k) : n < 2 ^ (k + 53) :=
  calc n < 2 ^ (n.log2 + 1) := Nat.lt_log2_self
    _ ≤ 2 ^ (k + 53) :=
        Nat.pow_le_pow_right (by norm_num) (by unfold spacingBits at h; omega)

theorem le_of_lt_spacingBits {n k : Nat} (h : k < spacingBits n) : 2 ^ (k + 53) ≤ n := by
  unfold spacingBits at h
  have hne : n ≠ 0 := by
    rintro rfl
    simp at h
  exact (Nat.le_log2 hne).1 (by omega)

/-- A quotient whose spacing is wider than that of the count is more than half a step above it. -/
theorem spacingBits_le (hrepresentable : Representable units) (hden : 0 < den)
    (h : Within units (Nat.pow 2 (spacingBits units)) num den) :
    spacingBits (num / den) ≤ spacingBits units := by
  by_contra hwider
  -- A power of two lies between the two, a whole number of steps above the count.
  have hpower : units + Nat.pow 2 (spacingBits units) ≤ 2 ^ (spacingBits units + 53) :=
    add_step_le (Nat.dvd_of_mod_eq_zero hrepresentable.2)
      (Nat.pow_dvd_pow 2 (Nat.le_add_right _ _)) (lt_of_spacingBits_le (Nat.le_refl _))
  have hquotient : 2 ^ (spacingBits units + 53) ≤ num / den :=
    le_of_lt_spacingBits (Nat.lt_of_not_le hwider)
  have hnum : (units + Nat.pow 2 (spacingBits units)) * den ≤ num :=
    (Nat.le_div_iff_mul_le hden).1 (hpower.trans hquotient)
  have hpositive : 0 < Nat.pow 2 (spacingBits units) * den :=
    Nat.mul_pos (Nat.pow_pos (by norm_num)) hden
  have hhigh := h.high
  rw [Nat.add_mul] at hnum
  omega

/-- A count above a quotient of narrower spacing is a power of two. -/
theorem eq_power_of_narrower {k : Nat} (hrepresentable : Representable units) (hden : 0 < den)
    (h : Within units (Nat.pow 2 (spacingBits units)) num den) (hk : spacingBits units = k + 1)
    (hspacing : spacingBits (num / den) ≤ k) : units = 2 ^ (k + 53) := by
  have hfloor : 2 ^ (k + 53) ≤ units := le_of_lt_spacingBits (by omega)
  have hbelow : num < 2 ^ (k + 53) * den :=
    (Nat.div_lt_iff_lt_mul hden).1 (lt_of_spacingBits_le hspacing)
  by_contra hne
  have hnext : 2 ^ (k + 53) + Nat.pow 2 (spacingBits units) ≤ units :=
    add_step_le (Nat.pow_dvd_pow 2 (by omega)) (Nat.dvd_of_mod_eq_zero hrepresentable.2)
      (Nat.lt_of_le_of_ne hfloor (Ne.symm hne))
  have hproduct := Nat.mul_le_mul_right den hnext
  have hlow := h.low
  rw [Nat.add_mul] at hproduct
  omega

/-- A quotient whose spacing is narrower than that of the count lies below the count, which is a
power of two, by a quarter of a step at most. -/
theorem nearestUnits_of_narrower (hrepresentable : Representable units) (hden : 0 < den)
    (h : Within units (Nat.pow 2 (spacingBits units)) num den)
    (hspacing : spacingBits (num / den) < spacingBits units) : nearestUnits num den = units := by
  obtain ⟨k, hk⟩ : ∃ k, spacingBits units = k + 1 := ⟨spacingBits units - 1, by omega⟩
  have hcount := eq_power_of_narrower hrepresentable hden h hk (by omega)
  have hbelow : num < units * den := by
    rw [hcount]
    exact (Nat.div_lt_iff_lt_mul hden).1 (lt_of_spacingBits_le (by omega))
  have hquarter : 4 * (units * den) ≤ 4 * num + 2 * (2 ^ k * den) := by
    have hsharp := h.sharp (by rw [hcount, Nat.log2_two_pow]; rfl) (by omega)
    have hstep : Nat.pow 2 (spacingBits units) = 2 * 2 ^ k := by
      rw [hk]
      exact Nat.pow_succ'
    rwa [hstep, Nat.mul_assoc] at hsharp
  have hunits : units * den = 2 ^ 53 * (2 ^ k * den) := by
    rw [hcount, pow_add]
    ring
  have hspacing' : spacingBits (num / den) = k := by
    have hle : 2 ^ (k + 52) ≤ num / den := by
      rw [Nat.le_div_iff_mul_le hden]
      have htwice : 2 ^ (k + 52) * den = 2 ^ 52 * (2 ^ k * den) := by
        rw [pow_add]
        ring
      rw [htwice]
      omega
    have hne : num / den ≠ 0 := Nat.ne_zero_of_lt (Nat.lt_of_lt_of_le (Nat.two_pow_pos _) hle)
    have hlog : k + 52 ≤ (num / den).log2 := (Nat.le_log2 hne).2 hle
    unfold spacingBits at hspacing hk ⊢
    omega
  have hproduct : 2 ^ 53 * (den * 2 ^ k) = units * den := by rw [hunits, Nat.mul_comm den]
  have hround : roundDiv num (den * Nat.pow 2 k) = 2 ^ 53 := by
    rw [← hproduct, Nat.mul_comm (2 ^ k) den] at hquarter
    rw [← hproduct] at hbelow
    apply roundDiv_eq (Nat.mul_pos hden (Nat.two_pow_pos k)) <;> omega
  unfold nearestUnits
  simp only [hspacing']
  rw [hround, hcount, Nat.add_comm]
  exact (Nat.pow_add 2 53 k).symm

/-- A number that lies near a count rounds to it. -/
theorem nearestUnits_of_near (hunits : 0 < units) (hrepresentable : Representable units)
    (hden : 0 < den) (h : Near units ((num : ℚ) / den)) : nearestUnits num den = units := by
  have hwithin := within_of_near hunits hden h
  rcases Nat.lt_or_eq_of_le (spacingBits_le hrepresentable hden hwithin) with hlt | heq
  · exact nearestUnits_of_narrower hrepresentable hden hwithin hlt
  · exact nearestUnits_of_same hrepresentable hden hwithin heq

/-! ## Shortest digits -/

/-- The count itself lies near it. -/
theorem near_self {units : Nat} (hunits : 0 < units) : Near units units := by
  have hstep : 0 < Nat.pow 2 (spacingBits units) := Nat.pow_pos (by norm_num)
  have hbelow := step_le hunits
  have hlow : lowerEnd units < 4 * units := by
    unfold lowerEnd
    split <;> omega
  have hhigh : 4 * units < upperEnd units := by
    unfold upperEnd
    omega
  have hlow' : (lowerEnd units : ℚ) < 4 * units := by exact_mod_cast hlow
  have hhigh' : (4 * units : ℚ) < upperEnd units := by exact_mod_cast hhigh
  exact ⟨hlow'.le, hhigh'.le, fun _ => ⟨hlow'.ne, hhigh'.ne⟩⟩

/-- A choice among candidates that read back reads back. -/
theorem readsBack_of_choice {units : Nat} {p : Prop} [Decidable p] {lower upper d : Digits}
    (h : (match readsBack units lower, readsBack units upper with
      | true, true => if p then some lower else some upper
      | true, false => some lower
      | false, true => some upper
      | false, false => none) = some d) : readsBack units d = true := by
  cases hlower : readsBack units lower <;> cases hupper : readsBack units upper <;>
    simp only [hlower, hupper] at h
  case true.true =>
    split at h
    · rw [← Option.some.inj h, hlower]
    · rw [← Option.some.inj h, hupper]
  case true.false => rw [← Option.some.inj h, hlower]
  case false.true => rw [← Option.some.inj h, hupper]
  case false.false => cases h

theorem readsBack_of_gridDigits {units : Nat} {exponent : Int} {d : Digits}
    (h : gridDigits units exponent = some d) : readsBack units d = true := by
  unfold gridDigits at h
  exact readsBack_of_choice h

/-- A multiple of a negative power of two as a decimal. -/
theorem value_mul_five (units n : Nat) :
    Digits.value ⟨units * Nat.pow 5 n, -n⟩ * (Nat.pow 2 n : Nat) = units := by
  have hten : (10 : ℚ) ^ n = 5 ^ n * 2 ^ n := by
    rw [← mul_pow]
    norm_num
  simp only [Digits.value, zpow_neg, zpow_natCast, Nat.pow_eq, hten]
  push_cast
  field_simp

/-- The shortest digits of a count lie near it. -/
theorem near_shortest {units : Nat} (hunits : 0 < units) :
    Near units ((shortest units).value * oneUnit) := by
  unfold shortest
  simp only
  split
  · rename_i d hd
    obtain ⟨n, -, hgrid⟩ := List.exists_of_findSome?_eq_some hd
    rw [Digits.value_stripZeros]
    exact near_of_readsBack (readsBack_of_gridDigits hgrid)
  · unfold oneUnit
    exact (value_mul_five units unitBits).symm ▸ near_self hunits

/-- Nothing near a positive count is zero. -/
theorem digits_pos {units : Nat} (hunits : 0 < units) {d : Digits}
    (h : Near units (d.value * oneUnit)) : d.digits ≠ 0 := by
  intro hzero
  have hlow : 0 < lowerEnd units := by
    have := step_le hunits
    unfold lowerEnd
    split <;> omega
  have hvalue : d.value = 0 := by simp [Digits.value, hzero]
  have := h.low
  rw [hvalue, zero_mul, mul_zero] at this
  have hpositive : (0 : ℚ) < lowerEnd units := by exact_mod_cast hlow
  exact absurd this (not_le.2 hpositive)

theorem two_pow_pos (n : Nat) : 0 < Nat.pow 2 n := Nat.two_pow_pos n

theorem two_pow_add (m n : Nat) : Nat.pow 2 (m + n) = Nat.pow 2 m * Nat.pow 2 n :=
  Nat.pow_add 2 m n

/-- A power of ten below twice a power of two. -/
theorem three_mul_le {m n : Nat} (h : 10 ^ m < 2 * Nat.pow 2 n) : 3 * m ≤ n := by
  have hpower : 2 ^ (3 * m) < 2 ^ (n + 1) :=
    calc 2 ^ (3 * m) = 8 ^ m := Nat.pow_mul 2 3 m
      _ ≤ 10 ^ m := Nat.pow_le_pow_left (by norm_num) m
      _ < 2 * Nat.pow 2 n := h
      _ = 2 ^ (n + 1) := Nat.pow_succ'.symm
  exact Nat.le_of_lt_succ ((Nat.pow_lt_pow_iff_right (by norm_num)).1 hpower)

theorem oneUnit_pos : 0 < oneUnit := by
  unfold oneUnit
  exact two_pow_pos unitBits

theorem overflowUnits_eq : overflowUnits = Nat.pow 2 1024 * oneUnit := by
  unfold overflowUnits oneUnit
  -- A power with numerals would be computed.
  generalize 1024 = width
  exact two_pow_add width unitBits

/-- Near a count below a bound there is nothing above twice the bound. -/
theorem value_lt_of_near {units bound : Nat} (hunits : 0 < units)
    (hrange : units < bound * oneUnit) {x : ℚ} (h : Near units (x * oneUnit)) : x < 2 * bound := by
  have hupper : upperEnd units ≤ 6 * units := by
    have := step_le hunits
    unfold upperEnd
    omega
  have hhigh := h.high
  have hpos := oneUnit_pos
  revert hrange hhigh hpos
  generalize oneUnit = one
  intro hrange hhigh hpos
  have hone : (0 : ℚ) < one := by exact_mod_cast hpos
  have hcast : (units : ℚ) < bound * one := by exact_mod_cast hrange
  have hupper' : (upperEnd units : ℚ) ≤ 6 * units := by exact_mod_cast hupper
  refine lt_of_mul_lt_mul_right ?_ hone.le
  linarith

/-- Near a count within the finite range, no decimal has an exponent above 400. -/
theorem exponent_le {units : Nat} (hunits : 0 < units) (hrange : units < overflowUnits)
    {d : Digits} (h : Near units (d.value * oneUnit)) : d.exponent ≤ 400 := by
  by_contra hlarge
  have hdigits : 1 ≤ d.digits := Nat.one_le_iff_ne_zero.2 (digits_pos hunits h)
  obtain ⟨n, hn⟩ : ∃ n : Nat, d.exponent = (401 + n : Nat) := ⟨(d.exponent - 401).toNat, by omega⟩
  rw [overflowUnits_eq] at hrange
  have hvalue := value_lt_of_near hunits hrange h
  have hpower : 10 ^ (401 + n) < 2 * Nat.pow 2 1024 := by
    unfold Digits.value at hvalue
    rw [hn, zpow_natCast] at hvalue
    have hcast : d.digits * 10 ^ (401 + n) < 2 * Nat.pow 2 1024 := by exact_mod_cast hvalue
    exact (Nat.le_mul_of_pos_left _ hdigits).trans_lt hcast
  have := three_mul_le hpower
  omega

/-- A decimal that lies near a count reads back as the number of that count. -/
theorem ofDecimal_of_near {units : Nat} (hunits : 0 < units) (hrepresentable : Representable units)
    {d : Digits} (h : Near units (d.value * oneUnit)) (negative : Bool) :
    ofDecimal negative d.digits d.exponent = .finite negative units hrepresentable := by
  have hratio : ofRatio negative d.ratio.1 d.ratio.2 = .finite negative units hrepresentable := by
    have hnear : Near units (((d.ratio.1 * oneUnit : Nat) : ℚ) / d.ratio.2) := by
      rw [← d.ratio_div] at h
      push_cast
      rwa [mul_div_right_comm]
    unfold ofRatio ofQuotient ofUnits
    rw [nearestUnits_of_near hunits hrepresentable d.ratio_pos hnear, dif_pos hrepresentable]
  have hexponent := exponent_le hunits hrepresentable.1 h
  unfold Digits.ratio at hratio
  unfold ofDecimal
  rw [if_neg (digits_pos hunits h)]
  split at hratio
  · rename_i hwhole
    rw [if_pos hwhole, if_neg (by omega)]
    exact hratio
  · rename_i hwhole
    rw [if_neg hwhole]
    exact hratio

end Binary64

end Workgraph
