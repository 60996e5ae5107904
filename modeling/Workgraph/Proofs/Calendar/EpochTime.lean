import Workgraph.Calendar.Iso
import Workgraph.Proofs.Calendar.TextOrder
import Workgraph.Proofs.Number.Quotients
/-!
# Seconds since 1970

A finite number of seconds is the moment of its whole seconds and of its part, in microseconds, that
binary64 arithmetic gives for it, as far as the calendar goes (`ofEpochSeconds_eq_ok_iff`).
-/

namespace Workgraph

/-- The part of a number below one has at most as many bits. -/
theorem isShort_mod {units : Nat} (h : IsShort units) : IsShort (units % oneUnit) := by
  unfold oneUnit
  generalize unitBits = b
  rw [Nat.pow_eq]
  have hdvd : 2 ^ spacingBits units ∣ units := Nat.dvd_of_mod_eq_zero h
  have hlt : units < 2 ^ (spacingBits units + 53) := Binary64.lt_of_spacingBits_le le_rfl
  have hle : units % 2 ^ b ≤ units := Nat.mod_le _ _
  rcases Nat.le_total b (spacingBits units) with hb | hb
  · rw [Nat.mod_eq_zero_of_dvd ((Nat.pow_dvd_pow 2 hb).trans hdvd)]
    exact Nat.zero_mod _
  · obtain ⟨v, hv⟩ : 2 ^ spacingBits units ∣ units % 2 ^ b :=
      (Nat.dvd_mod_iff (Nat.pow_dvd_pow 2 hb)).2 hdvd
    rw [Nat.pow_add] at hlt
    rw [hv] at hle ⊢
    rw [Nat.mul_comm]
    exact isShort_of_lt (Nat.lt_of_mul_lt_mul_left (hle.trans_lt hlt))

namespace Calendar

open Binary64

/-- The microseconds of the part of a second in so many units, as binary64 arithmetic gives them. -/
def microsOf (units : Nat) : Nat :=
  roundDiv (nearestUnits (units % oneUnit * (1000000 * oneUnit)) oneUnit) oneUnit

theorem ofInt_second : ∃ h, ofInt second = .finite false (1000000 * oneUnit) h := by
  have hexact : IsExact second := isExact_of_natAbs_le (by decide)
  have hunits (n : Nat) (hn : second.natAbs = n) :
      ∃ h, ofInt second = .finite false (n * oneUnit) h := by
    rcases ofInt_cases second with ⟨-, r, h, hnearest, -, heq⟩ | ⟨hlarge, -⟩
    · obtain rfl := hnearest.eq_self hexact
      subst hn
      exact ⟨h, heq⟩
    · exact absurd hexact.natAbs_lt (not_lt.2 hlarge)
  exact hunits 1000000 rfl

theorem ofUnits_of_representable {units : Nat} (h : Representable units) (negative : Bool) :
    ofUnits negative units = .finite negative units h := dif_pos h

theorem mul_def (x y : Binary64) : x * y = mul x y := rfl

theorem mul_finite {s t : Bool} {u v : Nat} (hu : Representable u) (hv : Representable v) :
    finite s u hu * finite t v hv = ofUnits (s != t) (nearestUnits (u * v) oneUnit) := by
  rw [mul_def, mul, ofQuotient]

theorem isShort_million : IsShort (1000000 * oneUnit) :=
  let ⟨h, _⟩ := ofInt_second
  h.isShort

/-- The part of a number of seconds, as microseconds before they are rounded to an integer. -/
theorem nearestUnits_part_le (units : Nat) :
    nearestUnits (units % oneUnit * (1000000 * oneUnit)) oneUnit ≤ 1000000 * oneUnit := by
  have hpos := oneUnit_pos
  refine nearestUnits_quotient_le hpos isShort_million ?_
  rw [Nat.mul_comm]
  exact Nat.mul_le_mul_left _ (Nat.mod_lt _ hpos).le

theorem microsOf_le (units : Nat) : microsOf units ≤ 1000000 := by
  have hpart := nearestUnits_part_le units
  refine (roundDiv_le_iff oneUnit_pos (by decide)).2 ?_
  omega

theorem exists_oneUnit_eq : ∃ b, 60 ≤ b ∧ oneUnit = 2 ^ b := by
  have hbits : 60 ≤ unitBits := by decide
  unfold oneUnit
  -- A power with numerals would be computed.
  generalize unitBits = b at hbits ⊢
  exact ⟨b, hbits, rfl⟩

theorem isShort_mul_oneUnit {q : Nat} (hq : q < 2 ^ 53) : IsShort (q * oneUnit) := by
  obtain ⟨b, -, hunit⟩ := exists_oneUnit_eq
  rw [hunit]
  exact isShort_of_lt hq

/-- Halves of integers have few bits. -/
theorem exists_half : ∃ half, oneUnit = 2 * half ∧ ∀ q < 2 ^ 53, IsShort (q * half) := by
  obtain ⟨b, hb, hunit⟩ := exists_oneUnit_eq
  obtain ⟨e, rfl⟩ : ∃ e, b = e + 1 := ⟨b - 1, by omega⟩
  exact ⟨2 ^ e, hunit.trans Nat.pow_succ', fun q hq => isShort_of_lt hq⟩

section
variable {units t : Nat} (ht : Even t) (hsize : t < 2 ^ 50)
include ht hsize

/-- The product is rounded before it is an integer, which does not move it over a half. -/
theorem le_microsOf (h : 2 * (t * oneUnit) ≤ 2 * (1000000 * (units % oneUnit)) + oneUnit) :
    t ≤ microsOf units := by
  obtain ⟨half, hunit, hshort⟩ := exists_half
  refine (le_roundDiv_iff oneUnit_pos ht).2 ?_
  cases t with
  | zero => omega
  | succ s =>
    have hbelow : (2 * s + 1) * half ≤ 1000000 * (units % oneUnit) := by
      rw [hunit] at h ⊢
      linarith only [h]
    have hproduct : (2 * s + 1) * half * oneUnit ≤ units % oneUnit * (1000000 * oneUnit) := by
      have hscaled := Nat.mul_le_mul_right oneUnit hbelow
      linarith only [hscaled]
    have hround := le_nearestUnits_quotient oneUnit_pos (hshort (2 * s + 1) (by omega)) hproduct
    generalize nearestUnits (units % oneUnit * (1000000 * oneUnit)) oneUnit = p at hround ⊢
    rw [hunit]
    linarith only [hround]

theorem microsOf_le_even (h : 2 * (1000000 * (units % oneUnit)) ≤ 2 * (t * oneUnit) + oneUnit) :
    microsOf units ≤ t := by
  obtain ⟨half, hunit, hshort⟩ := exists_half
  refine (roundDiv_le_iff oneUnit_pos ht).2 ?_
  have habove : 1000000 * (units % oneUnit) ≤ (2 * t + 1) * half := by
    rw [hunit] at h ⊢
    linarith only [h]
  have hproduct : units % oneUnit * (1000000 * oneUnit) ≤ (2 * t + 1) * half * oneUnit := by
    have hscaled := Nat.mul_le_mul_right oneUnit habove
    linarith only [hscaled]
  have hround := nearestUnits_quotient_le oneUnit_pos (hshort (2 * t + 1) (by omega)) hproduct
  generalize nearestUnits (units % oneUnit * (1000000 * oneUnit)) oneUnit = p at hround ⊢
  rw [hunit]
  linarith only [hround]

end

/-- A part of few bits is rounded once. -/
theorem microsOf_eq {units : Nat} (h : IsShort (1000000 * (units % oneUnit))) :
    microsOf units = roundDiv (1000000 * (units % oneUnit)) oneUnit := by
  have hproduct : units % oneUnit * (1000000 * oneUnit) =
      1000000 * (units % oneUnit) * oneUnit := by ring
  rw [microsOf, hproduct, nearestUnits_mul_self oneUnit_pos h]

/-- The microseconds of a part have the sign of the number. -/
theorem roundEven?_part (negative : Bool) (units : Nat) (h : Representable units) :
    ((finite negative units h).fraction * ofInt second).roundEven? =
      some (if negative then -(microsOf units : Int) else microsOf units) := by
  obtain ⟨hsecond, heq⟩ := ofInt_second
  have hpart : Representable (units % oneUnit) :=
    ⟨(Nat.mod_le _ _).trans_lt h.1, isShort_mod h.isShort⟩
  have hproduct : Representable (nearestUnits (units % oneUnit * (1000000 * oneUnit)) oneUnit) :=
    ⟨(nearestUnits_part_le units).trans_lt hsecond.1, isShort_nearestUnits_quotient _ oneUnit_pos⟩
  rw [heq, fraction, ofUnits_of_representable hpart, mul_finite, Bool.bne_false,
    ofUnits_of_representable hproduct]
  rfl

/-- The clock of a number of seconds, of which sign and units are given. -/
def epochClock (negative : Bool) (units : Nat) : Int :=
  let micros : Int := (units / oneUnit * 1000000 + microsOf units : Nat)
  epoch + if negative then -micros else micros

theorem year_range_iff (clock : Int) :
    (1 ≤ yearOfDay (Int.fdiv clock dayLength) ∧ yearOfDay (Int.fdiv clock dayLength) ≤ 9999) ↔
      0 ≤ clock ∧ clock < endOfTime := by
  have hend : endOfTime = 3652059 * 86400000000 := by decide
  have hfirst : daysBeforeYear 1 = 0 := by decide
  have hlast : daysBeforeYear 10000 = 3652059 := by decide
  rw [Moment.fdiv_dayLength, hend]
  constructor
  · rintro ⟨hlow, hhigh⟩
    have hspec := yearOfDay_spec (clock / 86400000000)
    have hstart := daysBeforeYear_mono hlow
    have hstop := daysBeforeYear_mono (show yearOfDay (clock / 86400000000) + 1 ≤ 10000 by omega)
    omega
  · rintro ⟨hlow, hhigh⟩
    exact yearOfDay_range (by omega) (by omega)

/-- Whole seconds that fit a word and lie in the years of the calendar. -/
theorem checkEpoch_iff {whole micros clock : Int} {m : Moment} (hmicros : micros.natAbs ≤ 1000000)
    (hclock : epoch + whole * second + micros = clock) :
    ((if !isWord whole then .error .range
      else
        let clock := epoch + whole * second + micros
        let year := yearOfDay (Int.fdiv clock dayLength)
        if year - 1900 < -2147483648 ∨ 2147483648 ≤ year - 1900 then .error .unrepresentable
        else if year < 1 ∨ 9999 < year then .error (.year (Int.bmod year 4294967296))
        else .ok ⟨clock, some 0⟩ : Except EpochError Moment) = .ok m) ↔
      m = ⟨clock, some 0⟩ ∧ 0 ≤ clock ∧ clock < endOfTime := by
  have hrange := year_range_iff clock
  rw [hclock]
  simp only
  have hword : 0 ≤ clock ∧ clock < endOfTime → isWord whole = true := by
    rintro ⟨hlow, hhigh⟩
    have hend : endOfTime = 315537897600000000 := by decide
    have hepoch : epoch = 62135596800000000 := by decide
    have hhalf : (wordHalf : Int) = 9223372036854775808 := by decide
    unfold second at hclock
    rw [isWord, hhalf, Bool.and_eq_true, decide_eq_true_eq, decide_eq_true_eq]
    omega
  constructor
  · intro h
    split at h
    · cases h
    · split at h
      · cases h
      · split at h
        · cases h
        · cases h
          exact ⟨rfl, hrange.1 (by omega)⟩
  · rintro ⟨rfl, hcalendar⟩
    have hyears := hrange.2 hcalendar
    rw [hword hcalendar, if_neg (by decide), if_neg (by omega), if_neg (by omega)]

/-- **A finite number of seconds is a moment exactly if its clock is in the calendar.** -/
theorem ofEpochSeconds_eq_ok_iff {negative : Bool} {units : Nat} {h : Representable units}
    {m : Moment} : ofEpochSeconds (.finite negative units h) = .ok m ↔
      m = ⟨epochClock negative units, some 0⟩ ∧ 0 ≤ epochClock negative units ∧
        epochClock negative units < endOfTime := by
  have hle := microsOf_le units
  obtain ⟨whole, hwhole⟩ : ∃ whole : Int, whole =
      if negative then -((units / oneUnit : Nat) : Int) else ((units / oneUnit : Nat) : Int) :=
    ⟨_, rfl⟩
  obtain ⟨micros, hmicros⟩ : ∃ micros : Int, micros =
      if negative then -(microsOf units : Int) else microsOf units := ⟨_, rfl⟩
  have htruncate : (finite negative units h).truncate? = some whole := congrArg some hwhole.symm
  have hround := roundEven?_part negative units h
  rw [← hmicros] at hround
  have hclock : epoch + whole * second + micros = epochClock negative units := by
    rw [hwhole, hmicros, epochClock]
    generalize units / oneUnit = w
    generalize microsOf units = k
    unfold second
    split <;> push_cast <;> ring
  have hsize : micros.natAbs ≤ 1000000 := by
    rw [hmicros]
    split <;> omega
  unfold ofEpochSeconds
  rw [htruncate, hround]
  simp only
  split
  · rename_i hmany
    refine checkEpoch_iff ?_ ?_
    · unfold second at hmany ⊢
      omega
    · rw [← hclock]
      ring
  · split
    · refine checkEpoch_iff ?_ ?_
      · unfold second
        omega
      · rw [← hclock]
        ring
    · exact checkEpoch_iff hsize hclock

end Calendar

end Workgraph
