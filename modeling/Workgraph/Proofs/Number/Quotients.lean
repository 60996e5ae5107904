import Workgraph.Proofs.Number.Nearest
/-!
# Rounded quotients

A quotient that is counted in units rounds to one of its two neighbours among the counts of at most 53
significant bits, and to the nearer one (`nearestUnits_quotient_cases`). So it stays on its side of
every such count (`le_nearestUnits_quotient`, `nearestUnits_quotient_le`), and it is off by at most half
a spacing (`nearestUnits_quotient_near`).
-/

namespace Workgraph

/-! ## Quotients rounded to an integer -/

theorem roundDiv_mul_right (num den : Nat) {k : Nat} (hk : 0 < k) :
    roundDiv (num * k) (den * k) = roundDiv num den := by
  unfold roundDiv
  simp only [Nat.mul_div_mul_right num den hk, Nat.mul_mod_mul_right, ← Nat.mul_assoc,
    Nat.mul_lt_mul_right hk]

/-- A rounded quotient is at most one half away. -/
theorem roundDiv_near (num : Nat) {den : Nat} (hden : 0 < den) :
    2 * num ≤ 2 * (roundDiv num den * den) + den ∧ 2 * (roundDiv num den * den) ≤ 2 * num + den := by
  have hsplit := Nat.div_add_mod' num den
  have hmod := Nat.mod_lt num hden
  obtain ⟨⟨heq, hhalf⟩ | ⟨heq, hhalf⟩, -⟩ := roundDiv_cases num den
  · rw [heq]
    omega
  · rw [heq, Nat.add_mul, Nat.one_mul]
    omega

/-- Halfway between two integers a quotient rounds to the even one. -/
theorem even_roundDiv {num den m : Nat} (hden : 0 < den) (h : 2 * num = 2 * (m * den) + den) :
    Even (roundDiv num den) := by
  have hdiv : num / den = m := by
    rw [Nat.div_eq_iff hden]
    omega
  have hsplit := Nat.div_add_mod' num den
  rw [hdiv] at hsplit
  exact even_iff_two_dvd.2 ((roundDiv_cases num den).2 (by omega))

section
variable {num den t : Nat} (hden : 0 < den) (ht : Even t)
include hden ht

/-- A quotient rounds to at least an even integer from halfway below it on. -/
theorem le_roundDiv_iff : t ≤ roundDiv num den ↔ 2 * (t * den) ≤ 2 * num + den := by
  obtain ⟨hlow, hhigh⟩ := roundDiv_near num hden
  refine ⟨fun hle => ?_, fun h => ?_⟩
  · have hmul := Nat.mul_le_mul_right den hle
    omega
  · by_contra hlt
    have hexpand : (roundDiv num den + 1) * den = roundDiv num den * den + den := Nat.succ_mul _ _
    have hnext : (roundDiv num den + 1) * den ≤ t * den := Nat.mul_le_mul_right den (by omega)
    have hsucc : roundDiv num den + 1 = t := Nat.eq_of_mul_eq_mul_right hden (by omega)
    have heven : Even (roundDiv num den) := even_roundDiv (m := roundDiv num den) hden (by omega)
    rw [← hsucc, Nat.even_add_one] at ht
    exact ht heven

/-- A quotient rounds to at most an even integer up to halfway above it. -/
theorem roundDiv_le_iff : roundDiv num den ≤ t ↔ 2 * num ≤ 2 * (t * den) + den := by
  obtain ⟨hlow, hhigh⟩ := roundDiv_near num hden
  refine ⟨fun hle => ?_, fun h => ?_⟩
  · have hmul := Nat.mul_le_mul_right den hle
    omega
  · by_contra hlt
    have hexpand : (t + 1) * den = t * den + den := Nat.succ_mul _ _
    have hnext : (t + 1) * den ≤ roundDiv num den * den := Nat.mul_le_mul_right den (by omega)
    have hsucc : t + 1 = roundDiv num den := Nat.eq_of_mul_eq_mul_right hden (by omega)
    have heven : Even (roundDiv num den) := even_roundDiv (m := t) hden (by omega)
    rw [← hsucc, Nat.even_add_one] at heven
    exact heven ht

end

/-! ## Quotients rounded to 53 bits -/

/-- A quotient rounds to one of the counts between which it lies, to the nearer one. -/
theorem nearestUnits_quotient_cases (num : Nat) {den : Nat} (hden : 0 < den) :
    ∃ lower step, step = 2 ^ spacingBits (num / den) ∧ Neighbours (num / den) lower (lower + step) ∧
      lower * den ≤ num ∧ num < (lower + step) * den ∧
      (nearestUnits num den = lower ∧ 2 * num ≤ 2 * (lower * den) + step * den ∨
        nearestUnits num den = lower + step ∧ 2 * (lower * den) + step * den ≤ 2 * num) := by
  obtain ⟨step, hstep⟩ : ∃ step, step = 2 ^ spacingBits (num / den) := ⟨_, rfl⟩
  have hpos : 0 < step := hstep ▸ Nat.two_pow_pos _
  have hneighbours := neighbours (num / den)
  rw [← hstep, Nat.div_div_eq_div_mul, Nat.add_mul, Nat.one_mul] at hneighbours
  refine ⟨num / (den * step) * step, step, hstep, hneighbours, ?_⟩
  have hround : nearestUnits num den = roundDiv num (den * step) * step := by rw [hstep]; rfl
  have hsplit := Nat.div_add_mod' num (den * step)
  have hmod := Nat.mod_lt num (Nat.mul_pos hden hpos)
  have hlower : num / (den * step) * step * den = num / (den * step) * (den * step) := by ring
  have hcomm : step * den = den * step := Nat.mul_comm step den
  obtain ⟨hcases, -⟩ := roundDiv_cases num (den * step)
  rw [hround, Nat.add_mul, hlower, hcomm]
  refine ⟨by omega, by omega, ?_⟩
  rcases hcases with ⟨heq, hhalf⟩ | ⟨heq, hhalf⟩
  · exact .inl ⟨by rw [heq], by omega⟩
  · exact .inr ⟨by rw [heq, Nat.add_mul, Nat.one_mul], by omega⟩

theorem isShort_nearestUnits_quotient (num : Nat) {den : Nat} (hden : 0 < den) :
    IsShort (nearestUnits num den) := by
  obtain ⟨lower, step, -, h, -, -, ⟨heq, -⟩ | ⟨heq, -⟩⟩ := nearestUnits_quotient_cases num hden
  · exact heq ▸ h.isShort_lower
  · exact heq ▸ h.isShort_upper

section
variable {num den u : Nat} (hden : 0 < den) (hu : IsShort u)
include hden hu

/-- A quotient does not round below a count of at most 53 significant bits. -/
theorem le_nearestUnits_quotient (h : u * den ≤ num) : u ≤ nearestUnits num den := by
  obtain ⟨lower, step, -, hneighbours, -, hlt, hround⟩ := nearestUnits_quotient_cases num hden
  have hlower : u ≤ lower := by
    refine (hneighbours.gap u hu).resolve_right fun hupper => ?_
    exact absurd ((Nat.mul_le_mul_right den hupper).trans h) (Nat.not_le.2 hlt)
  omega

/-- A quotient does not round above a count of at most 53 significant bits. -/
theorem nearestUnits_quotient_le (h : num ≤ u * den) : nearestUnits num den ≤ u := by
  obtain ⟨lower, step, hstep, hneighbours, hle, -, hround⟩ := nearestUnits_quotient_cases num hden
  rcases hneighbours.gap u hu with hlower | hupper
  · have hsame : lower * den ≤ u * den := hle.trans h
    have hback : u * den ≤ lower * den := Nat.mul_le_mul_right den hlower
    have hpos : 0 < step * den := Nat.mul_pos (hstep ▸ Nat.two_pow_pos _) hden
    obtain rfl : u = lower := Nat.eq_of_mul_eq_mul_right hden (le_antisymm hback hsame)
    omega
  · omega

/-- A count of at most 53 significant bits stays as it is. -/
theorem nearestUnits_mul_self : nearestUnits (u * den) den = u :=
  le_antisymm (nearestUnits_quotient_le hden hu le_rfl) (le_nearestUnits_quotient hden hu le_rfl)

end

/-- A rounded quotient is off by at most half a spacing. -/
theorem nearestUnits_quotient_near (num : Nat) {den : Nat} (hden : 0 < den) :
    2 * num ≤ 2 * (nearestUnits num den * den) + 2 ^ spacingBits (num / den) * den ∧
      2 * (nearestUnits num den * den) ≤ 2 * num + 2 ^ spacingBits (num / den) * den := by
  obtain ⟨lower, step, hstep, -, hle, hlt, hround⟩ := nearestUnits_quotient_cases num hden
  rw [← hstep]
  rw [Nat.add_mul] at hlt
  rcases hround with ⟨heq, hhalf⟩ | ⟨heq, hhalf⟩
  · rw [heq]
    omega
  · rw [heq, Nat.add_mul]
    omega

end Workgraph
