import Workgraph.Proofs.Calendar.EpochTime
import Workgraph.Proofs.Transform.Dates
/-!
# Milliseconds since 1970

Milliseconds are divided by a thousand in binary64 arithmetic, and the part of a second is rounded to a
microsecond, of which the timestamp cuts all but the millisecond (`microsOf_thousandth_eq`). The numbers
of seconds are so dense up to `2 ^ 33` of them that this gives every millisecond back. Beyond, the
moment comes out up to sixteen microseconds early or late. If it is early, the timestamp tells the
millisecond before: this is decided by what the division leaves (`IsKept`, `isKept_iff`). So formatting
milliseconds gives the time of them or of the millisecond before, and the same text for some two of them
(`formatDate_milliseconds`).
-/

namespace Workgraph.Transform

open Calendar Binary64

/-! ## Thousandths -/

/-- The units of a thousandth of a natural. -/
def thousandth (a : Nat) : Nat := nearestUnits (a * oneUnit) 1000

/-- So many whole seconds are not lost. -/
theorem le_thousandth {q a : Nat} (hq : q < 2 ^ 53) (h : q * 1000 ≤ a) :
    q * oneUnit ≤ thousandth a := by
  refine le_nearestUnits_quotient (by norm_num) (isShort_mul_oneUnit hq) ?_
  rw [Nat.mul_right_comm]
  exact Nat.mul_le_mul_right oneUnit h

/-- The spacing of binary64 numbers up to a power of two, in seconds. -/
theorem spacing_le {a k : Nat} (ha : a < 2 ^ k * 1000) (hk : k ≤ 53) :
    2 ^ spacingBits (a * oneUnit / 1000) * 2 ^ (53 - k) ≤ oneUnit := by
  obtain ⟨b, hb, hunit⟩ := exists_oneUnit_eq
  rw [hunit]
  have hlt : a * 2 ^ b / 1000 < 2 ^ (k + b) := by
    rw [Nat.div_lt_iff_lt_mul (by norm_num), Nat.pow_add, Nat.mul_right_comm]
    exact Nat.mul_lt_mul_of_pos_right ha (Nat.two_pow_pos b)
  have hspacing : spacingBits (a * 2 ^ b / 1000) ≤ k + b - 53 := by
    by_contra hlarge
    have hlow := Binary64.le_of_lt_spacingBits (not_le.1 hlarge)
    have hpower : 2 ^ (k + b) ≤ 2 ^ (k + b - 53 + 53) :=
      Nat.pow_le_pow_right (by norm_num) (by omega)
    omega
  rw [← Nat.pow_add]
  exact Nat.pow_le_pow_right (by norm_num) (by omega)

/-- Half a spacing at most is lost. -/
theorem thousandth_near {a k : Nat} (ha : a < 2 ^ k * 1000) (hk : k ≤ 53) :
    2 * (a * oneUnit) * 2 ^ (53 - k) ≤ 2000 * thousandth a * 2 ^ (53 - k) + 1000 * oneUnit ∧
      2000 * thousandth a * 2 ^ (53 - k) ≤ 2 * (a * oneUnit) * 2 ^ (53 - k) + 1000 * oneUnit := by
  obtain ⟨hlow, hhigh⟩ := nearestUnits_quotient_near (a * oneUnit) (show 0 < 1000 by norm_num)
  have hspacing := spacing_le ha hk
  unfold thousandth
  generalize nearestUnits (a * oneUnit) 1000 = u at *
  generalize 2 ^ spacingBits (a * oneUnit / 1000) = step at *
  generalize 2 ^ (53 - k) = m at *
  generalize a * oneUnit = num at *
  have hlow' := Nat.mul_le_mul_right m hlow
  have hhigh' := Nat.mul_le_mul_right m hhigh
  constructor <;> linarith only [hlow', hhigh', hspacing]

section
variable {a : Nat} (ha : a < 2 ^ 38 * 1000)
include ha

/-- A thousandth has as many whole seconds as the milliseconds. -/
theorem thousandth_div : thousandth a / oneUnit = a / 1000 := by
  obtain ⟨-, hhigh⟩ := thousandth_near ha (by norm_num)
  have hlow : a / 1000 * oneUnit ≤ thousandth a := le_thousandth (by omega) (Nat.div_mul_le_self a 1000)
  have hpos := oneUnit_pos
  have hsplit : a * oneUnit = 1000 * (a / 1000 * oneUnit) + a % 1000 * oneUnit := by
    rw [← Nat.mul_assoc, ← Nat.add_mul, Nat.div_add_mod]
  have hpart : a % 1000 * oneUnit ≤ 999 * oneUnit :=
    Nat.mul_le_mul_right oneUnit (by omega)
  rw [Nat.div_eq_iff hpos]
  norm_num at hhigh
  omega

/-- The part of a second, in units. -/
theorem thousandth_mod : thousandth a = a / 1000 * oneUnit + thousandth a % oneUnit := by
  rw [← thousandth_div ha, Nat.div_add_mod']

theorem microsOf_thousandth_near : 1000 * (a % 1000) ≤ microsOf (thousandth a) + 16 ∧
    microsOf (thousandth a) ≤ 1000 * (a % 1000) + 16 := by
  obtain ⟨hlow, hhigh⟩ := thousandth_near ha (by norm_num)
  have hmod := thousandth_mod ha
  have hsplit : a * oneUnit = 1000 * (a / 1000 * oneUnit) + a % 1000 * oneUnit := by
    rw [← Nat.mul_assoc, ← Nat.add_mul, Nat.div_add_mod]
  norm_num at hlow hhigh
  have hlast : a % 1000 < 1000 := Nat.mod_lt _ (by norm_num)
  constructor
  · rcases Nat.eq_zero_or_pos (a % 1000) with hzero | hpos
    · omega
    · have hle : 1000 * (a % 1000) - 16 ≤ microsOf (thousandth a) := by
        refine le_microsOf ⟨500 * (a % 1000) - 8, by omega⟩ (by omega) ?_
        have hsub : (1000 * (a % 1000) - 16) * oneUnit =
            1000 * (a % 1000 * oneUnit) - 16 * oneUnit := by
          rw [Nat.sub_mul, Nat.mul_assoc]
        omega
      omega
  · refine microsOf_le_even ⟨500 * (a % 1000) + 8, by omega⟩ (by omega) ?_
    have hadd : (1000 * (a % 1000) + 16) * oneUnit =
        1000 * (a % 1000 * oneUnit) + 16 * oneUnit := by
      rw [Nat.add_mul, Nat.mul_assoc]
    omega

end

/-- Up to `2 ^ 33` seconds no microsecond is lost. -/
theorem microsOf_thousandth_of_lt {a : Nat} (ha : a < 2 ^ 33 * 1000) :
    microsOf (thousandth a) = 1000 * (a % 1000) := by
  obtain ⟨hlow, hhigh⟩ := thousandth_near ha (by norm_num)
  have hmod := thousandth_mod (a := a) (by omega)
  have hsplit : a * oneUnit = 1000 * (a / 1000 * oneUnit) + a % 1000 * oneUnit := by
    rw [← Nat.mul_assoc, ← Nat.add_mul, Nat.div_add_mod]
  norm_num at hlow hhigh
  have hlast : a % 1000 < 1000 := Nat.mod_lt _ (by norm_num)
  have heven : Even (1000 * (a % 1000)) := ⟨500 * (a % 1000), by omega⟩
  have hassoc : 1000 * (a % 1000) * oneUnit = 1000 * (a % 1000 * oneUnit) := Nat.mul_assoc _ _ _
  apply le_antisymm
  · refine microsOf_le_even heven (by omega) ?_
    omega
  · refine le_microsOf heven (by omega) ?_
    omega

/-- How many binary64 numbers lie in a second, so many whole seconds from 1970. -/
def density (seconds : Nat) : Nat := 2 ^ (52 - seconds.log2)

/-- A thousandth is rounded to the spacing of binary64 numbers near its whole seconds. -/
theorem spacingBits_seconds {a b : Nat} (ha : a / 1000 ≠ 0) :
    spacingBits (a * 2 ^ b / 1000) = (a / 1000).log2 + b - 52 := by
  have hlow : 2 ^ (a / 1000).log2 ≤ a / 1000 := Nat.log2_self_le ha
  have hhigh : a / 1000 < 2 ^ ((a / 1000).log2 + 1) := Nat.lt_log2_self
  have hbounds : 2 ^ ((a / 1000).log2 + b) ≤ a * 2 ^ b / 1000 ∧
      a * 2 ^ b / 1000 < 2 ^ ((a / 1000).log2 + b + 1) := by
    rw [Nat.le_div_iff_mul_le (by norm_num), Nat.div_lt_iff_lt_mul (by norm_num),
      Nat.add_right_comm, Nat.pow_add, Nat.pow_add _ _ b, Nat.mul_right_comm,
      Nat.mul_right_comm _ _ 1000]
    exact ⟨Nat.mul_le_mul_right _ ((Nat.le_div_iff_mul_le (by norm_num)).1 hlow),
      Nat.mul_lt_mul_of_pos_right ((Nat.div_lt_iff_lt_mul (by norm_num)).1 hhigh)
        (Nat.two_pow_pos b)⟩
  have hpositive : a * 2 ^ b / 1000 ≠ 0 := Nat.ne_of_gt ((Nat.two_pow_pos _).trans_le hbounds.1)
  rw [spacingBits, (Nat.log2_eq_iff hpositive).2 hbounds]

/-- From `2 ^ 33` seconds on a thousandth is a multiple of the spacing, and its part in microseconds has
few bits. -/
theorem microsOf_thousandth_eq {a : Nat} (hlow : 2 ^ 33 * 1000 ≤ a) (ha : a < 2 ^ 38 * 1000) :
    ∃ part, roundDiv (a * density (a / 1000)) 1000 = a / 1000 * density (a / 1000) + part ∧
      microsOf (thousandth a) = roundDiv (1000000 * part) (density (a / 1000)) := by
  obtain ⟨b, hb, hunit⟩ := exists_oneUnit_eq
  have hne : a / 1000 ≠ 0 := by omega
  have hlogLow : 33 ≤ (a / 1000).log2 := (Nat.le_log2 hne).2 (by omega)
  have hlogHigh : (a / 1000).log2 < 38 := (Nat.log2_lt hne).2 (by omega)
  obtain ⟨step, hstep⟩ : ∃ step, step = 2 ^ ((a / 1000).log2 + b - 52) := ⟨_, rfl⟩
  have hpos : 0 < step := hstep ▸ Nat.two_pow_pos _
  have hsecond : oneUnit = density (a / 1000) * step := by
    have hbits : 52 - (a / 1000).log2 + ((a / 1000).log2 + b - 52) = b := by omega
    rw [hunit, density, hstep, ← Nat.pow_add, hbits]
  have hthousandth : thousandth a = roundDiv (a * density (a / 1000)) 1000 * step := by
    have hspacing : spacingBits (a * oneUnit / 1000) = (a / 1000).log2 + b - 52 := by
      rw [hunit, spacingBits_seconds hne]
    have hround : thousandth a = roundDiv (a * oneUnit) (1000 * step) * step := by
      simp only [thousandth, nearestUnits, hspacing, Nat.pow_eq, ← hstep]
    have hnum : a * oneUnit = a * density (a / 1000) * step := by rw [hsecond, Nat.mul_assoc]
    rw [hround, hnum, roundDiv_mul_right _ _ hpos]
  refine ⟨roundDiv (a * density (a / 1000)) 1000 % density (a / 1000), ?_, ?_⟩
  · have hdiv := thousandth_div ha
    rw [hthousandth, hsecond, Nat.mul_div_mul_right _ _ hpos] at hdiv
    have hsplit := Nat.div_add_mod' (roundDiv (a * density (a / 1000)) 1000) (density (a / 1000))
    rw [hdiv] at hsplit
    exact hsplit.symm
  · -- The product with the microseconds of a second has few bits, so it is not rounded.
    have hpart : thousandth a % oneUnit =
        roundDiv (a * density (a / 1000)) 1000 % density (a / 1000) * step := by
      rw [hthousandth, hsecond, Nat.mul_mod_mul_right]
    have hdensity : density (a / 1000) ≤ 2 ^ 19 := Nat.pow_le_pow_right (by norm_num) (by omega)
    have hlt := Nat.mod_lt (roundDiv (a * density (a / 1000)) 1000)
      (show 0 < density (a / 1000) from Nat.two_pow_pos _)
    have hshort : IsShort (1000000 * (thousandth a % oneUnit)) := by
      rw [hpart, ← Nat.mul_assoc, hstep]
      exact isShort_of_lt (by omega)
    rw [microsOf_eq hshort, hpart, hsecond, ← Nat.mul_assoc, roundDiv_mul_right _ _ hpos]

/-- Whether the milliseconds from 1970 are kept: what is cut from the number of binary64 numbers up to
them is at most half a microsecond, or so much that it is rounded up. -/
def IsKept (n : Int) : Prop :=
  500 ≤ n * density (n.natAbs / 1000) % 1000 ∨
    2000 * (n * density (n.natAbs / 1000) % 1000) ≤ density (n.natAbs / 1000)

instance (n : Int) : Decidable (IsKept n) := inferInstanceAs (Decidable (_ ∨ _))

/-- Up to `2 ^ 33` seconds there are so many numbers that nothing is lost. -/
theorem isKept_of_lt {n : Int} (h : n.natAbs < 2 ^ 33 * 1000) : IsKept n := by
  have hdensity : 2 ^ 20 ≤ density (n.natAbs / 1000) := by
    refine Nat.pow_le_pow_right (by norm_num) ?_
    rcases Nat.eq_zero_or_pos (n.natAbs / 1000) with hzero | hpos
    · rw [hzero]
      decide
    · have := (Nat.log2_lt (k := 33) hpos.ne').2 (by omega)
      omega
  unfold IsKept
  omega

/-- A product by sign and magnitude. -/
theorem mul_eq_natAbs (n : Int) (d : Nat) :
    n * d = if n < 0 then -((n.natAbs * d : Nat) : Int) else (n.natAbs * d : Nat) := by
  rw [Nat.cast_mul]
  split
  · have habs : (n.natAbs : Int) = -n := by omega
    rw [habs]
    ring
  · have habs : (n.natAbs : Int) = n := by omega
    rw [habs]

/-- The milliseconds are kept exactly if the microseconds do not come out below them. -/
theorem isKept_iff {n : Int} (h : n.natAbs < 2 ^ 38 * 1000) :
    IsKept n ↔ if n < 0 then microsOf (thousandth n.natAbs) ≤ 1000 * (n.natAbs % 1000)
      else 1000 * (n.natAbs % 1000) ≤ microsOf (thousandth n.natAbs) := by
  rcases Nat.lt_or_ge n.natAbs (2 ^ 33 * 1000) with hsmall | hlarge
  · refine iff_of_true (isKept_of_lt hsmall) ?_
    rw [microsOf_thousandth_of_lt hsmall]
    split <;> rfl
  · obtain ⟨part, hround, hmicros⟩ := microsOf_thousandth_eq hlarge h
    -- A remainder that is a multiple of eight is no half of a thousand: the division has no ties.
    obtain ⟨eighth, heighth⟩ : 2 ^ 3 ∣ density (n.natAbs / 1000) := by
      have hlog := (Nat.log2_lt (n := n.natAbs / 1000) (k := 38) (by omega)).2 (by omega)
      exact Nat.pow_dvd_pow 2 (by omega)
    have hpos : 0 < density (n.natAbs / 1000) := Nat.two_pow_pos _
    rw [hmicros]
    unfold IsKept
    generalize density (n.natAbs / 1000) = h at *
    have heven : Even (1000 * (n.natAbs % 1000)) := ⟨500 * (n.natAbs % 1000), by omega⟩
    rw [le_roundDiv_iff hpos heven, roundDiv_le_iff hpos heven]
    have hsplit : n.natAbs * h = 1000 * (n.natAbs / 1000 * h) + n.natAbs % 1000 * h := by
      rw [← Nat.mul_assoc, ← Nat.add_mul, Nat.div_add_mod]
    have hassoc : 1000 * (n.natAbs % 1000) * h = 1000 * (n.natAbs % 1000 * h) := Nat.mul_assoc _ _ _
    have hdvd : n.natAbs * h = 8 * (n.natAbs * eighth) := by
      rw [heighth]
      ring
    obtain ⟨hcases, -⟩ := roundDiv_cases (n.natAbs * h) 1000
    rw [hround] at hcases
    rw [mul_eq_natAbs, hassoc]
    clear hmicros heven hround
    -- Only products with the density are left, which count as unknowns.
    generalize n.natAbs * h = product at *
    generalize n.natAbs / 1000 * h = whole at *
    generalize n.natAbs % 1000 * h = rest at *
    generalize n.natAbs * eighth = eighths at *
    split <;> omega

/-! ## Moments -/

/-- The milliseconds since 1970 that the timestamp of so many milliseconds tells. -/
def toldMillis (n : Int) : Int := if IsKept n then n else n - 1

/-- The milliseconds from the start of year 1 to the start of 1970. -/
def epochMillis : Int := 62135596800000

/-- Milliseconds since 1970 that lie in the years 1 to 9999. -/
def InCalendar (n : Int) : Prop := -62135596800000 ≤ n ∧ n ≤ 253402300799999

instance (n : Int) : Decidable (InCalendar n) := inferInstanceAs (Decidable (_ ∧ _))

theorem epochClock_div {n : Int} (h : n.natAbs < 2 ^ 38 * 1000) :
    epochClock (n < 0) (thousandth n.natAbs) / 1000 = epochMillis + toldMillis n := by
  have hkept := isKept_iff h
  obtain ⟨hlow, hhigh⟩ := microsOf_thousandth_near h
  have hepoch : epoch = 62135596800000000 := by decide
  rw [epochClock, thousandth_div h, hepoch, epochMillis, toldMillis]
  simp only [decide_eq_true_eq]
  generalize microsOf (thousandth n.natAbs) = micros at *
  by_cases hkeeps : IsKept n
  · have hmicros := hkept.1 hkeeps
    rw [if_pos hkeeps]
    split at hmicros <;> split <;> omega
  · -- The moment is early, so the whole milliseconds are those before.
    have hmicros := mt hkept.2 hkeeps
    rw [if_neg hkeeps]
    split at hmicros <;> split <;> omega

/-- The milliseconds whose seconds are in the calendar. -/
theorem epochClock_range (n : Int) :
    (0 ≤ epochClock (n < 0) (thousandth n.natAbs) ∧
      epochClock (n < 0) (thousandth n.natAbs) < endOfTime) ↔ InCalendar n := by
  unfold InCalendar
  have hend : endOfTime = 315537897600000000 := by decide
  rcases Nat.lt_or_ge n.natAbs (2 ^ 38 * 1000) with hsmall | hlarge
  · -- Nothing is lost at either end of the calendar, so no other milliseconds come over an end.
    have hdiv := epochClock_div hsmall
    have hfirst : IsKept (-62135596800000) := by decide
    have hlast : IsKept 253402300800000 := by decide
    rw [epochMillis, toldMillis] at hdiv
    rw [hend]
    generalize epochClock (n < 0) (thousandth n.natAbs) = clock at *
    by_cases hstart : n = -62135596800000
    · subst hstart
      rw [if_pos hfirst] at hdiv
      omega
    · by_cases hstop : n = 253402300800000
      · subst hstop
        rw [if_pos hlast] at hdiv
        omega
      · split at hdiv <;> omega
  · have hseconds : 2 ^ 38 ≤ thousandth n.natAbs / oneUnit :=
      (Nat.le_div_iff_mul_le oneUnit_pos).2 (le_thousandth (by norm_num) hlarge)
    have hepoch : epoch = 62135596800000000 := by decide
    rw [epochClock, hepoch, hend]
    simp only [decide_eq_true_eq]
    generalize thousandth n.natAbs / oneUnit = seconds at *
    split <;> omega

/-- A thousandth of milliseconds in the calendar is in the range of binary64 numbers. -/
theorem representable_thousandth {a : Nat} (ha : a < 2 ^ 38 * 1000) :
    Representable (thousandth a) := by
  refine ⟨?_, isShort_nearestUnits_quotient _ (by norm_num)⟩
  obtain ⟨k, hk, hoverflow⟩ : ∃ k, 38 ≤ k ∧ overflowUnits = Nat.pow 2 k * oneUnit :=
    ⟨1024, by norm_num, overflowUnits_eq⟩
  have hpower : a / 1000 + 1 ≤ Nat.pow 2 k :=
    (show a / 1000 + 1 ≤ 2 ^ 38 by omega).trans (Nat.pow_le_pow_right (by norm_num) hk)
  have hmod := Nat.lt_div_mul_add (a := thousandth a) oneUnit_pos
  rw [thousandth_div ha, ← Nat.succ_mul] at hmod
  rw [hoverflow]
  exact hmod.trans_le (Nat.mul_le_mul_right oneUnit hpower)

/-- Dividing milliseconds by a thousand, as far as there are binary64 numbers. -/
theorem intQuotient?_thousand (n : Int) : Arithmetic.intQuotient? n 1000 =
    (ofUnits (n < 0) (thousandth n.natAbs)).finite? := by
  have hsign : (decide (n < 0) != decide ((1000 : Int) < 0)) = decide (n < 0) := Bool.bne_false _
  rw [Arithmetic.intQuotient?, hsign]
  rfl

/-- The moment so many milliseconds after the start of 1970, as binary64 arithmetic gives it. -/
def millisMoment (n : Int) : Moment := ⟨epochClock (n < 0) (thousandth n.natAbs), some 0⟩

/-- So many milliseconds are a moment exactly if that is in the calendar. -/
theorem moment_int_eq_ok_iff {n : Int} {m : Moment} :
    moment (.int n) = .ok m ↔ m = millisMoment n ∧ InCalendar n := by
  have hmoment : moment (.int n) =
      ((ofUnits (n < 0) (thousandth n.natAbs)).finite?).elim (.error .integerSize) secondsMoment := by
    rw [← intQuotient?_thousand]
    rfl
  rw [hmoment, ← epochClock_range]
  by_cases h : Representable (thousandth n.natAbs)
  · rw [ofUnits_of_representable h, finite?, Option.elim_some, secondsMoment, mapError_eq_ok_iff]
    exact ofEpochSeconds_eq_ok_iff
  · have hnone : (ofUnits (n < 0) (thousandth n.natAbs)).finite? = none := by
      rw [ofUnits, dif_neg h]
      rfl
    rw [hnone, Option.elim_none, epochClock_range]
    refine iff_of_false (fun hok => by cases hok) fun hrange => ?_
    unfold InCalendar at hrange
    exact h (representable_thousandth (by omega))

section
variable {n : Int} (h : InCalendar n)
include h

theorem InCalendar.isUniversal : (millisMoment n).IsUniversal :=
  have hrange := (epochClock_range n).2 h
  ⟨rfl, hrange.1, hrange.2⟩

theorem InCalendar.clock_div : (millisMoment n).clock / 1000 = epochMillis + toldMillis n := by
  unfold InCalendar at h
  exact epochClock_div (by omega)

theorem InCalendar.denotes_stamp :
    Denotes (millisMoment n).stamp (epochMillis + toldMillis n) := by
  rw [← h.clock_div]
  exact h.isUniversal.denotes_stamp

/-- Two timestamps are the same exactly if the same milliseconds are told. -/
theorem InCalendar.stamp_eq_iff {n' : Int} (h' : InCalendar n') :
    (millisMoment n').stamp = (millisMoment n).stamp ↔ toldMillis n' = toldMillis n := by
  constructor
  · intro heq
    have hdenotes := h'.denotes_stamp
    rw [heq] at hdenotes
    exact Int.add_left_cancel (hdenotes.unique h.denotes_stamp)
  · intro htold
    exact Moment.stamp_congr (by rw [h.clock_div, h'.clock_div, htold])

end

/-! ## Timestamps -/

/-- A text is the timestamp of so many milliseconds since 1970, or of the millisecond before if they are
not kept. -/
structure IsMillisTimestamp (n : Int) (text : String) : Prop where
  denotes : Denotes text (epochMillis + toldMillis n)
  exact : Denotes text (epochMillis + n) ↔ IsKept n
  field : ∃ front digits, text.toList = front ++ '.' :: (digits ++ ['Z']) ∧
    Spells digits 3 (toldMillis n % 1000).toNat

theorem isMillisTimestamp_of_denotes {n : Int} {text : String}
    (h : Denotes text (epochMillis + toldMillis n)) : IsMillisTimestamp n text := by
  refine ⟨h, ⟨fun hexact => ?_, fun hkept => ?_⟩, ?_⟩
  · by_contra hkept
    have heq := h.unique hexact
    rw [toldMillis, if_neg hkept] at heq
    omega
  · rwa [toldMillis, if_pos hkept] at h
  · have hmod : (epochMillis + toldMillis n) % 1000 = toldMillis n % 1000 := by
      rw [epochMillis]
      omega
    rw [← hmod]
    exact h.millisecond

/-- Milliseconds in the calendar, and no others, are formatted. -/
theorem formatDate_int_eq_ok_iff {params : Entries Value} {context : Context} {n : Int} {w : Value} :
    formatDate.apply params context (.int n) = .ok w ↔
      InCalendar n ∧ w = .text (millisMoment n).stamp := by
  rw [formatDate_eq_ok_iff]
  constructor
  · rintro ⟨m, u, hm, hu, rfl⟩
    obtain ⟨rfl, hrange⟩ := moment_int_eq_ok_iff.1 hm
    rw [toUniversal?_of_isUniversal hrange.isUniversal] at hu
    cases hu
    exact ⟨hrange, rfl⟩
  · rintro ⟨hrange, rfl⟩
    exact ⟨_, _, moment_int_eq_ok_iff.2 ⟨rfl, hrange⟩,
      toUniversal?_of_isUniversal hrange.isUniversal, rfl⟩

/-- Other milliseconds are refused. -/
theorem formatDate_int_of_not {params : Entries Value} {context : Context} {n : Int}
    (h : ¬ InCalendar n) : ∃ reason behind,
      formatDate.apply params context (.int n) = formatDate.refuse reason behind := by
  cases hm : moment (.int n) with
  | error e => exact ⟨_, _, formatDate_of_fault params context hm⟩
  | ok m => exact absurd (moment_int_eq_ok_iff.1 hm).2 h

/-- **What formatting milliseconds gives.** Milliseconds in the calendar give a timestamp of them, or of
the millisecond before if they are not kept, and the same text is given for the milliseconds that tell
the same. All are kept up to `2 ^ 33` seconds from 1970. What is not in the calendar is refused. -/
theorem formatDate_milliseconds (params : Entries Value) (context : Context) (n : Int) :
    (if InCalendar n then
        ∃ text, formatDate.apply params context (.int n) = .ok (.text text) ∧
          IsMillisTimestamp n text ∧ ∀ params' context' n',
            formatDate.apply params' context' (.int n') = .ok (.text text) ↔
              InCalendar n' ∧ toldMillis n' = toldMillis n
      else ∃ reason behind,
        formatDate.apply params context (.int n) = formatDate.refuse reason behind) ∧
      (n.natAbs ≤ 2 ^ 33 * 1000 → toldMillis n = n) := by
  constructor
  · split
    · rename_i hrange
      refine ⟨_, formatDate_int_eq_ok_iff.2 ⟨hrange, rfl⟩,
        isMillisTimestamp_of_denotes hrange.denotes_stamp, fun params' context' n' => ?_⟩
      rw [formatDate_int_eq_ok_iff, Value.text.injEq]
      refine and_congr_right fun hrange' => ?_
      rw [eq_comm]
      exact hrange.stamp_eq_iff hrange'
    · rename_i hrange
      exact formatDate_int_of_not hrange
  · intro hsmall
    have hkept : IsKept n := by
      rcases hsmall.lt_or_eq with hlt | heq
      · exact isKept_of_lt hlt
      · rcases Int.natAbs_eq_iff.1 heq with rfl | rfl <;> decide
    rw [toldMillis, if_pos hkept]

/-- The millisecond after `2 ^ 33` seconds is not kept. -/
theorem late_millisecond_lost : formatDate.apply [] [] (.int 8589934592001) =
      .ok (.text "2242-03-16T12:56:32.000Z") ∧
    formatDate.apply [] [] (.int 8589934592000) = .ok (.text "2242-03-16T12:56:32.000Z") ∧
    ¬ Denotes "2242-03-16T12:56:32.000Z" (epochMillis + 8589934592001) := by
  have hrange : InCalendar 8589934592001 := by decide
  have hrange' : InCalendar 8589934592000 := by decide
  have htold : toldMillis 8589934592001 = 8589934592000 := by decide
  have htext : (millisMoment 8589934592001).stamp = "2242-03-16T12:56:32.000Z" := by
    have hclock : (millisMoment 8589934592001).clock / 1000 =
        Moment.clock ⟨70725531392000000, some 0⟩ / 1000 := by
      rw [hrange.clock_div, htold]
      decide
    rw [Moment.stamp_congr hclock]
    cbv
  have htext' : (millisMoment 8589934592000).stamp = "2242-03-16T12:56:32.000Z" := by
    rw [← htext]
    exact (hrange.stamp_eq_iff hrange').2 (by decide)
  refine ⟨formatDate_int_eq_ok_iff.2 ⟨hrange, by rw [htext]⟩,
    formatDate_int_eq_ok_iff.2 ⟨hrange', by rw [htext']⟩, fun hdenotes => ?_⟩
  rw [← htext] at hdenotes
  have hlost : ¬ IsKept 8589934592001 := by decide
  exact hlost ((isMillisTimestamp_of_denotes hrange.denotes_stamp).exact.1 hdenotes)

end Workgraph.Transform
