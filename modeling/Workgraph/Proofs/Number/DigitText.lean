import Mathlib.Tactic
import Workgraph.Value.Document
/-!
# Texts of digits

What decimal digits are worth, and how they are cut from a text. The digits of a natural are worth
that natural (`digitsValue_toDigits`), and a text is cut where its digits end (`spanDigits_append`).
How many digits there are tells how large the natural is (`digitCount_le_iff`).
-/

namespace Workgraph

namespace Json

/-! ## Values of digits -/

/-- Characters that are all decimal digits. -/
def AllDigits (ds : List Char) : Prop := ∀ c ∈ ds, c.isDigit = true

theorem AllDigits.append {xs ys : List Char} (hxs : AllDigits xs) (hys : AllDigits ys) :
    AllDigits (xs ++ ys) := by
  intro c hc
  rcases List.mem_append.1 hc with hx | hy
  · exact hxs c hx
  · exact hys c hy

theorem allDigits_toDigits (n : Nat) : AllDigits (Nat.toDigits 10 n) :=
  fun _ hc => Nat.isDigit_of_mem_toDigits (by norm_num) (by norm_num) hc

theorem allDigits_zeros (n : Nat) : AllDigits (List.replicate n '0') := by
  intro c hc
  rw [List.eq_of_mem_replicate hc]
  rfl

theorem digitsValue_eq (ds : List Char) : digitsValue ds = Nat.ofDigitChars 10 ds 0 := rfl

theorem digitsValue_toDigits (n : Nat) : digitsValue (Nat.toDigits 10 n) = n := by
  rw [digitsValue_eq, Nat.ofDigitChars_ten_toDigits]

theorem digitsValue_append (xs ys : List Char) :
    digitsValue (xs ++ ys) = digitsValue xs * 10 ^ ys.length + digitsValue ys := by
  rw [digitsValue_eq, Nat.ofDigitChars_append, Nat.ofDigitChars_eq_ofDigitChars_zero, Nat.mul_comm]
  rfl

theorem digitsValue_zeros (n : Nat) : digitsValue (List.replicate n '0') = 0 := by
  rw [digitsValue_eq, Nat.ofDigitChars_replicate_zero, Nat.mul_zero]

/-- Zeros in front are worth nothing. -/
theorem digitsValue_zeros_append (n : Nat) (ds : List Char) :
    digitsValue (List.replicate n '0' ++ ds) = digitsValue ds := by
  rw [digitsValue_append, digitsValue_zeros, Nat.zero_mul, Nat.zero_add]

/-- Each zero behind is worth a factor of ten. -/
theorem digitsValue_append_zeros (ds : List Char) (n : Nat) :
    digitsValue (ds ++ List.replicate n '0') = digitsValue ds * 10 ^ n := by
  rw [digitsValue_append, digitsValue_zeros, List.length_replicate, Nat.add_zero]

/-- The first digit of a positive natural is not zero. -/
theorem head?_toDigits {n : Nat} (hn : n ≠ 0) : (Nat.toDigits 10 n).head? ≠ some '0' := by
  induction n using Nat.strongRecOn with
  | ind n ih =>
    rw [Nat.toDigits_eq_if (by norm_num)]
    split
    · rename_i hsmall
      revert hn
      interval_cases n <;> decide
    · rw [List.head?_append_of_ne_nil _ Nat.toDigits_ne_nil]
      exact ih (n / 10) (by omega) (by omega)

/-! ## Cutting digits from a text -/

/-- Texts that do not go on with a digit. -/
def NoDigitFirst (cs : List Char) : Prop := ∀ c ∈ cs.head?, c.isDigit = false

theorem spanDigits_eq (cs : List Char) : spanDigits cs = cs.span Char.isDigit := rfl

/-- Digits are cut from what does not go on with one. -/
theorem spanDigits_append {ds rest : List Char} (hds : AllDigits ds) (hrest : NoDigitFirst rest) :
    spanDigits (ds ++ rest) = (ds, rest) := by
  rw [spanDigits_eq, List.span_eq_takeWhile_dropWhile, List.takeWhile_append_of_pos hds,
    List.dropWhile_append_of_pos hds]
  cases rest with
  | nil => simp
  | cons c rest =>
    have hc : c.isDigit = false := hrest c rfl
    simp [hc]

end Json

/-! ## Counts of digits -/

theorem digitCount_le_iff {n k : ℕ} (hk : 0 < k) : digitCount n ≤ k ↔ n < 10 ^ k :=
  Nat.length_toDigits_le_iff (by norm_num) hk

theorem Value.hasLongInteger_int {i : ℤ} :
    (Value.int i).hasLongInteger = true ↔ 10 ^ maxNumeralDigits ≤ i.natAbs := by
  rw [hasLongInteger, isLongInteger, decide_eq_true_iff, gt_iff_lt, ← not_le,
    digitCount_le_iff (by decide), not_lt]

/-- The least integer that is too long to be written. -/
theorem Value.hasLongInteger_pow :
    (Value.int ((10 ^ maxNumeralDigits : Nat) : Int)).hasLongInteger = true :=
  Value.hasLongInteger_int.2 (Int.natAbs_natCast _).ge

end Workgraph
