import Workgraph.Proofs.Number.Rounding
/-!
# Rounding to the nearest number

A whole count rounds to one of its two neighbours among the counts of at most 53 significant bits,
and to the nearer one. So an integer becomes the nearest integer that is a binary64 number
(`Binary64.ofInt_cases`), up to the bound from which on it becomes infinite, and only a binary64
number stays as it is.
-/

namespace Workgraph

/-! ## Quotients -/

/-- A quotient rounds down or up, to the nearer integer, and halfway to the even one. -/
theorem roundDiv_cases (num den : Nat) :
    (roundDiv num den = num / den ∧ 2 * (num % den) ≤ den ∨
      roundDiv num den = num / den + 1 ∧ den ≤ 2 * (num % den)) ∧
    (2 * (num % den) = den → 2 ∣ roundDiv num den) := by
  unfold roundDiv
  simp only
  split
  · exact ⟨.inl ⟨rfl, by omega⟩, by omega⟩
  · split
    · exact ⟨.inr ⟨rfl, by omega⟩, by omega⟩
    · split
      · exact ⟨.inl ⟨rfl, by omega⟩, by omega⟩
      · exact ⟨.inr ⟨rfl, by omega⟩, by omega⟩

/-! ## Neighbours -/

/-- A count of at most 53 significant bits. -/
def IsShort (units : Nat) : Prop := units % Nat.pow 2 (spacingBits units) = 0

theorem Representable.isShort {units : Nat} (h : Representable units) : IsShort units := h.2

theorem isShort_of_lt {q e : Nat} (hq : q < 2 ^ 53) : IsShort (q * 2 ^ e) := by
  rcases Nat.eq_zero_or_pos q with rfl | hpos
  · rw [Nat.zero_mul]
    exact Nat.zero_mod _
  · have hlog : (q * 2 ^ e).log2 < 53 + e := by
      rw [Nat.log2_lt (Nat.mul_pos hpos (Nat.two_pow_pos e)).ne', Nat.pow_add]
      exact Nat.mul_lt_mul_of_pos_right hq (Nat.two_pow_pos e)
    have hspacing : spacingBits (q * 2 ^ e) ≤ e := by
      unfold spacingBits
      omega
    exact Nat.mod_eq_zero_of_dvd ((Nat.pow_dvd_pow 2 hspacing).trans (Nat.dvd_mul_left _ q))

/-- A significand of 53 bits or the next power of two, times a power of two. -/
theorem isShort_mul {q : Nat} (hq : q ≤ 2 ^ 53) (e : Nat) : IsShort (q * 2 ^ e) := by
  rcases Nat.lt_or_eq_of_le hq with hlt | rfl
  · exact isShort_of_lt hlt
  · have hhalf : 2 ^ 53 * 2 ^ e = 2 ^ 52 * 2 ^ (e + 1) := by
      rw [Nat.pow_succ 2 e]
      omega
    rw [hhalf]
    exact isShort_of_lt (by norm_num)

/-- The counts of at most 53 significant bits between which a count lies. -/
structure Neighbours (x lower upper : Nat) : Prop where
  isShort_lower : IsShort lower
  isShort_upper : IsShort upper
  le : lower ≤ x
  lt : x < upper
  gap : ∀ u, IsShort u → u ≤ lower ∨ upper ≤ u

/-- Counts of at most 53 bits above a multiple of the spacing are multiples of it too. -/
theorem dvd_of_gt_floor {x u : Nat} (hu : IsShort u)
    (h : x / 2 ^ spacingBits x * 2 ^ spacingBits x < u) : 2 ^ spacingBits x ∣ u := by
  have hspacing : spacingBits x ≤ spacingBits u := by
    rcases Nat.eq_zero_or_pos (spacingBits x) with hzero | hpos
    · rw [hzero]
      exact Nat.zero_le _
    · obtain ⟨k, hk⟩ : ∃ k, spacingBits x = k + 1 := ⟨spacingBits x - 1, by omega⟩
      -- The leading power of two is a multiple of the spacing.
      have hx : 2 ^ (k + 53) ≤ x := Binary64.le_of_lt_spacingBits (by omega)
      have hsplit : 2 ^ (k + 53) = 2 ^ 52 * 2 ^ spacingBits x := by
        rw [hk, ← Nat.pow_add]
        congr 1
        omega
      have hfloor : 2 ^ (k + 53) ≤ x / 2 ^ spacingBits x * 2 ^ spacingBits x := by
        rw [hsplit] at hx ⊢
        exact Nat.mul_le_mul_right _ ((Nat.le_div_iff_mul_le (Nat.two_pow_pos _)).2 hx)
      have hpower : 2 ^ (k + 53) ≤ u := hfloor.trans h.le
      have hlog : k + 53 ≤ u.log2 := (Nat.le_log2 (Nat.ne_zero_of_lt h)).2 hpower
      unfold spacingBits at hk ⊢
      omega
  exact (Nat.pow_dvd_pow 2 hspacing).trans (Nat.dvd_of_mod_eq_zero hu)

theorem neighbours (x : Nat) : Neighbours x (x / 2 ^ spacingBits x * 2 ^ spacingBits x)
    ((x / 2 ^ spacingBits x + 1) * 2 ^ spacingBits x) := by
  have hpos := Nat.two_pow_pos (spacingBits x)
  have hsignificand : x / 2 ^ spacingBits x < 2 ^ 53 := by
    rw [Nat.div_lt_iff_lt_mul hpos, ← Nat.pow_add, Nat.add_comm]
    exact Binary64.lt_of_spacingBits_le (Nat.le_refl _)
  refine ⟨isShort_mul hsignificand.le _, isShort_mul hsignificand _, Nat.div_mul_le_self _ _, ?_, ?_⟩
  · rw [Nat.mul_comm]
    exact Nat.lt_mul_div_succ x hpos
  · intro u hu
    by_contra hbetween
    obtain ⟨hlower, hupper⟩ := not_or.1 hbetween
    rw [Nat.add_mul, Nat.one_mul] at hupper
    have hstep := Binary64.add_step_le (Nat.dvd_mul_left _ _) (dvd_of_gt_floor hu (by omega))
      (Nat.lt_of_not_le hlower)
    omega

theorem nearestUnits_eq (x : Nat) :
    nearestUnits x 1 = roundDiv x (2 ^ spacingBits x) * 2 ^ spacingBits x := by
  simp only [nearestUnits, Nat.div_one, Nat.one_mul]
  rfl

/-- A count rounds to one of its neighbours, to the nearer one, and halfway between them to the one
that is an even multiple of the spacing. -/
theorem nearestUnits_cases (x : Nat) : ∃ lower upper, Neighbours x lower upper ∧
    (nearestUnits x 1 = lower ∧ x - lower ≤ upper - x ∨
      nearestUnits x 1 = upper ∧ upper - x ≤ x - lower) ∧
    (x - lower = upper - x → 2 * 2 ^ spacingBits x ∣ nearestUnits x 1) := by
  refine ⟨_, _, neighbours x, ?_⟩
  have hsplit : x / 2 ^ spacingBits x * 2 ^ spacingBits x + x % 2 ^ spacingBits x = x := by
    rw [Nat.mul_comm]
    exact Nat.div_add_mod x _
  obtain ⟨hround, heven⟩ := roundDiv_cases x (2 ^ spacingBits x)
  rw [nearestUnits_eq]
  refine ⟨?_, fun htie => ?_⟩
  · rcases hround with ⟨heq, hhalf⟩ | ⟨heq, hhalf⟩
    · rw [heq, Nat.add_mul, Nat.one_mul]
      exact .inl ⟨rfl, by omega⟩
    · rw [heq, Nat.add_mul, Nat.one_mul]
      exact .inr ⟨rfl, by omega⟩
  · rw [Nat.add_mul, Nat.one_mul] at htie
    exact Nat.mul_dvd_mul_right (heven (by omega)) _

theorem isShort_nearestUnits (x : Nat) : IsShort (nearestUnits x 1) := by
  obtain ⟨lower, upper, h, ⟨heq, -⟩ | ⟨heq, -⟩, -⟩ := nearestUnits_cases x
  · exact heq ▸ h.isShort_lower
  · exact heq ▸ h.isShort_upper

/-- A count with an even significand. -/
def IsEven (units : Nat) : Prop := 2 * 2 ^ spacingBits units ∣ units

theorem isEven_two_pow (e : Nat) : IsEven (2 ^ (e + 53)) := by
  have hspacing : spacingBits (2 ^ (e + 53)) = e + 1 := by
    rw [spacingBits, Nat.log2_two_pow]
    omega
  have hdvd : 2 ^ (e + 1 + 1) ∣ 2 ^ (e + 53) := Nat.pow_dvd_pow 2 (by omega)
  rwa [IsEven, hspacing, ← Nat.pow_succ']

/-- Even multiples of a spacing, up to the power of two where the next spacing begins. -/
theorem isEven_of_dvd {e v : Nat} (hv : v ≤ 2 ^ (e + 53)) (h : 2 * 2 ^ e ∣ v) : IsEven v := by
  rcases Nat.lt_or_eq_of_le hv with hlt | heq
  · have hspacing : spacingBits v ≤ e := by
      rcases Nat.eq_zero_or_pos v with rfl | hpos
      · exact Nat.zero_le e
      · have := (Nat.log2_lt hpos.ne').2 hlt
        unfold spacingBits
        omega
    exact (Nat.mul_dvd_mul_left 2 (Nat.pow_dvd_pow 2 hspacing)).trans h
  · rw [heq]
    exact isEven_two_pow e

section
variable {u x : Nat} (hu : IsShort u)
include hu

/-- Rounding does not go below a count of at most 53 significant bits. -/
theorem le_nearestUnits (hux : u ≤ x) : u ≤ nearestUnits x 1 := by
  obtain ⟨lower, upper, h, hround, -⟩ := nearestUnits_cases x
  have := h.le
  have := h.lt
  have := h.gap u hu
  omega

/-- Rounding does not go above a count of at most 53 significant bits. -/
theorem nearestUnits_le (hxu : x ≤ u) : nearestUnits x 1 ≤ u := by
  obtain ⟨lower, upper, h, hround, -⟩ := nearestUnits_cases x
  have := h.le
  have := h.lt
  have := h.gap u hu
  omega

/-- No other count of at most 53 significant bits is nearer. -/
theorem natAbs_sub_nearestUnits_le :
    ((x : Int) - nearestUnits x 1).natAbs ≤ ((x : Int) - u).natAbs := by
  obtain ⟨lower, upper, h, hround, -⟩ := nearestUnits_cases x
  have := h.le
  have := h.lt
  have := h.gap u hu
  omega

/-- Of two that are equally near, the one with the even significand is taken. -/
theorem isEven_nearestUnits (hne : u ≠ nearestUnits x 1)
    (htie : ((x : Int) - u).natAbs = ((x : Int) - nearestUnits x 1).natAbs) :
    IsEven (nearestUnits x 1) := by
  obtain ⟨lower, upper, h, hround, heven⟩ := nearestUnits_cases x
  have := h.le
  have := h.lt
  have := h.gap u hu
  have hbelow : x ≤ 2 ^ (spacingBits x + 53) :=
    (Binary64.lt_of_spacingBits_le (Nat.le_refl _)).le
  have htop : IsShort (2 ^ (spacingBits x + 53)) := by
    have hshort := isShort_mul (Nat.le_refl (2 ^ 53)) (spacingBits x)
    rwa [← Nat.pow_add, Nat.add_comm] at hshort
  exact isEven_of_dvd (nearestUnits_le htop hbelow) (heven (by omega))

theorem nearestUnits_self : nearestUnits u 1 = u :=
  Nat.le_antisymm (nearestUnits_le hu (Nat.le_refl u)) (le_nearestUnits hu (Nat.le_refl u))

end

/-- A multiple of a power of two rounds to a multiple of it. -/
theorem dvd_nearestUnits {b x : Nat} (h : 2 ^ b ∣ x) : 2 ^ b ∣ nearestUnits x 1 := by
  rcases Nat.le_total b (spacingBits x) with hle | hle
  · rw [nearestUnits_eq]
    exact (Nat.pow_dvd_pow 2 hle).trans (Nat.dvd_mul_left _ _)
  · have hshort : IsShort x := Nat.mod_eq_zero_of_dvd ((Nat.pow_dvd_pow 2 hle).trans h)
    rwa [nearestUnits_self hshort]

/-- Counts from half a spacing below a power of two round up to it. -/
theorem nearestUnits_lt_iff (x k : Nat) :
    nearestUnits x 1 < 2 ^ 54 * 2 ^ k ↔ x < (2 ^ 54 - 1) * 2 ^ k := by
  have hpos := Nat.two_pow_pos k
  have hdouble : 2 ^ (k + 1) = 2 * 2 ^ k := Nat.pow_succ'
  have htop : IsShort (2 ^ 54 * 2 ^ k) := by
    have h := isShort_mul (Nat.le_refl (2 ^ 53)) (k + 1)
    rwa [hdouble, ← Nat.mul_assoc] at h
  have hlast : IsShort ((2 ^ 54 - 2) * 2 ^ k) := by
    have h := isShort_mul (Nat.sub_le (2 ^ 53) 1) (k + 1)
    rwa [hdouble, ← Nat.mul_assoc] at h
  refine ⟨fun hround => ?_, fun hx => ?_⟩
  · by_contra hlarge
    refine absurd hround (Nat.not_lt.2 ?_)
    rcases Nat.lt_or_ge x (2 ^ 54 * 2 ^ k) with hbelow | habove
    · -- The count lies halfway below the power of two or further up, and the power is even.
      have hspacing : spacingBits x = k + 1 := by
        have hne : x ≠ 0 := by omega
        have hlow : k + 53 ≤ x.log2 := by
          rw [Nat.le_log2 hne, Nat.pow_add]
          omega
        have hhigh : x.log2 < k + 54 := by
          rw [Nat.log2_lt hne, Nat.pow_add]
          omega
        unfold spacingBits
        omega
      have hround : roundDiv x (2 ^ (k + 1)) = 2 ^ 53 := by
        rw [hdouble]
        apply roundDiv_eq <;> omega
      rw [nearestUnits_eq, hspacing, hround, hdouble]
      omega
    · exact le_nearestUnits htop habove
  · rcases Nat.le_total x ((2 ^ 54 - 2) * 2 ^ k) with hsmall | hlarge
    · have := nearestUnits_le hlast hsmall
      omega
    · have := natAbs_sub_nearestUnits_le (x := x) hlast
      omega

namespace Binary64

/-! ## Integers -/

/-- An integer that is a binary64 number. -/
def IsExact (k : Int) : Prop := Representable (k.natAbs * oneUnit)

instance (k : Int) : Decidable (IsExact k) :=
  inferInstanceAs (Decidable (Representable (k.natAbs * oneUnit)))

/-- An integer is the nearest to another among those that are binary64 numbers. -/
structure IsNearest (m r : Int) : Prop where
  isExact : IsExact r
  le : ∀ k, IsExact k → |m - r| ≤ |m - k|
  /-- If there are two, it is the one with the even significand. -/
  even : ∀ k, IsExact k → k ≠ r → |m - k| = |m - r| → IsEven (r.natAbs * oneUnit)

/-- The least multiple of a unit that rounds to a power of two or beyond lies half a spacing below
it. -/
theorem nearestUnits_mul_lt_iff (k b n : Nat) :
    nearestUnits (n * Nat.pow 2 b) 1 < Nat.pow 2 (54 + k + b) ↔ n < 2 ^ (54 + k) - 2 ^ k := by
  have htop : Nat.pow 2 (54 + k + b) = 2 ^ 54 * 2 ^ (k + b) := by
    rw [Nat.add_assoc]
    exact two_pow_add 54 (k + b)
  have hbound : (2 ^ 54 - 1) * 2 ^ (k + b) = (2 ^ (54 + k) - 2 ^ k) * Nat.pow 2 b := by
    rw [Nat.pow_add, ← Nat.mul_assoc, Nat.sub_mul, Nat.one_mul, ← Nat.pow_add]
    rfl
  rw [htop, nearestUnits_lt_iff, hbound]
  exact Nat.mul_lt_mul_right (two_pow_pos b)

/-- Integers round beyond the finite range from half a spacing below its end on. -/
theorem nearestUnits_lt_overflow_iff (n : Nat) :
    nearestUnits (n * oneUnit) 1 < overflowUnits ↔ n < 2 ^ 1024 - 2 ^ 970 := by
  have h := nearestUnits_mul_lt_iff 970 unitBits n
  unfold oneUnit overflowUnits
  -- A power with numerals would be computed.
  generalize unitBits = b at h ⊢
  rwa [show 54 + 970 = 1024 from rfl] at h

theorem oneUnit_dvd_nearestUnits {x : Nat} (h : oneUnit ∣ x) : oneUnit ∣ nearestUnits x 1 := by
  unfold oneUnit at h ⊢
  generalize unitBits = b at h ⊢
  exact dvd_nearestUnits h

/-- The magnitude to which an integer rounds is an integer. -/
theorem exists_nearest (m : Nat) : ∃ q : Nat, nearestUnits (m * oneUnit) 1 = q * oneUnit := by
  obtain ⟨q, hq⟩ : oneUnit ∣ nearestUnits (m * oneUnit) 1 :=
    oneUnit_dvd_nearestUnits (Nat.dvd_mul_left _ m)
  exact ⟨q, hq.trans (Nat.mul_comm oneUnit q)⟩

/-- Distances of integers, counted in units. -/
theorem natAbs_sub_units (m k : Nat) : (((m * oneUnit : Nat) : Int) - (k * oneUnit : Nat)).natAbs =
    ((m : Int) - k).natAbs * oneUnit := by
  push_cast
  rw [← Int.sub_mul, Int.natAbs_mul, Int.natAbs_natCast]

section
variable {m q k : Nat} (hq : nearestUnits (m * oneUnit) 1 = q * oneUnit)
  (hk : IsShort (k * oneUnit))
include hq hk

theorem natAbs_sub_le_of_nearest : ((m : Int) - q).natAbs ≤ ((m : Int) - k).natAbs := by
  have hle := natAbs_sub_nearestUnits_le (x := m * oneUnit) hk
  rw [hq, natAbs_sub_units, natAbs_sub_units] at hle
  exact Nat.le_of_mul_le_mul_right hle oneUnit_pos

theorem isEven_of_nearest (hne : k ≠ q)
    (htie : ((m : Int) - k).natAbs = ((m : Int) - q).natAbs) : IsEven (q * oneUnit) := by
  rw [← hq]
  refine isEven_nearestUnits hk ?_ ?_
  · rw [hq]
    exact fun h => hne (Nat.eq_of_mul_eq_mul_right oneUnit_pos h)
  · rw [hq, natAbs_sub_units, natAbs_sub_units, htie]

end

/-- Integers of 53 bits are binary64 numbers. -/
theorem isExact_of_natAbs_le {k : Int} (h : k.natAbs ≤ 2 ^ 53) : IsExact k := by
  have hshort : IsShort (k.natAbs * oneUnit) := by
    unfold oneUnit
    generalize unitBits = b
    exact isShort_mul h b
  refine ⟨?_, hshort⟩
  rw [← nearestUnits_self hshort, nearestUnits_lt_overflow_iff]
  exact h.trans_lt (by decide +kernel)

/-- **An integer becomes the nearest integer that is a binary64 number, or infinite from half a
spacing below the end of the finite range on.** -/
theorem ofInt_cases (m : Int) :
    (m.natAbs < 2 ^ 1024 - 2 ^ 970 ∧ ∃ r h, IsNearest m r ∧
      (if m < 0 then -(r.natAbs : Int) else r.natAbs) = r ∧
      ofInt m = .finite (m < 0) (r.natAbs * oneUnit) h) ∨
      2 ^ 1024 - 2 ^ 970 ≤ m.natAbs ∧ ofInt m = .infinite (m < 0) := by
  have hof : ofInt m = ofUnits (m < 0) (nearestUnits (m.natAbs * oneUnit) 1) := rfl
  rcases Nat.lt_or_ge m.natAbs (2 ^ 1024 - 2 ^ 970) with hm | hm
  · obtain ⟨q, hq⟩ := exists_nearest m.natAbs
    have hexact : Representable (q * oneUnit) := by
      rw [← hq]
      exact ⟨(nearestUnits_lt_overflow_iff _).2 hm, isShort_nearestUnits _⟩
    rw [hq, ofUnits, dif_pos hexact] at hof
    obtain ⟨r, hr, hsign⟩ : ∃ r : Int, r.natAbs = q ∧
        (if m < 0 then -(r.natAbs : Int) else r.natAbs) = r := by
      refine ⟨if m < 0 then -(q : Int) else q, ?_⟩
      split <;> simp
    subst hr
    refine .inl ⟨hm, r, hexact, ⟨hexact, fun k hk => ?_, fun k hk hne htie => ?_⟩, hsign, hof⟩
    -- Both integers have one sign, so they are as far apart as their magnitudes.
    · have hmagnitude := natAbs_sub_le_of_nearest hq hk.isShort
      simp only [Int.abs_eq_natAbs]
      split at hsign <;> omega
    -- An integer of the other sign is farther away than zero.
    · have hzero : IsExact 0 := isExact_of_natAbs_le (Nat.zero_le _)
      have hmagnitude := natAbs_sub_le_of_nearest hq hzero.isShort
      simp only [Int.abs_eq_natAbs] at htie
      apply isEven_of_nearest hq hk.isShort <;> split at hsign <;> omega
  · have hover : ¬ Representable (nearestUnits (m.natAbs * oneUnit) 1) := by
      rintro ⟨hrange, -⟩
      exact absurd ((nearestUnits_lt_overflow_iff _).1 hrange) (Nat.not_lt.2 hm)
    rw [ofUnits, dif_neg hover] at hof
    exact .inr ⟨hm, hof⟩

theorem IsExact.natAbs_lt {k : Int} (h : IsExact k) : k.natAbs < 2 ^ 1024 - 2 ^ 970 := by
  rw [← nearestUnits_lt_overflow_iff, nearestUnits_self h.isShort]
  exact h.1

/-- The nearest to an integer that is a binary64 number is the integer itself. -/
theorem IsNearest.eq_self {m r : Int} (h : IsNearest m r) (hm : IsExact m) : r = m := by
  have hle := h.le m hm
  rw [Int.sub_self, abs_zero] at hle
  have hzero := abs_eq_zero.1 (le_antisymm hle (abs_nonneg _))
  omega

end Binary64

end Workgraph
