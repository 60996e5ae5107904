import Workgraph.Value.Compare
import Workgraph.Proofs.Arithmetic.Layout
import Workgraph.Proofs.Number.Nearest
import Workgraph.Proofs.Value.Numeral
/-!
# Integers beside texts of integers

A condition reads a text as a binary64 number. So an integer compares with the text of another one as
with the binary64 number nearest to that, and by value exactly where that number is the integer
itself (`Value.compares_integer_text`).
-/

namespace Workgraph

/-! ## Reading the text of an integer -/

theorem toLower_of_isDigit {c : Char} (h : c.isDigit = true) : c.toLower = c := by
  obtain ⟨-, hhigh⟩ : 48 ≤ c.toNat ∧ c.toNat ≤ 57 := Char.isDigit_iff_toNat.1 h
  refine dif_neg ?_
  rintro ⟨hcapital, -⟩
  have hletter : 65 ≤ c.toNat := UInt32.le_iff_toNat_le.1 hcapital
  omega

/-- ASCII digits and signs are as they are. -/
theorem plainDigits_eq {cs : List Char} (h : ∀ c ∈ cs, c = '-' ∨ c.isDigit = true) :
    plainDigits cs = cs := by
  refine (List.map_congr_left fun c hc => ?_).trans (List.map_id cs)
  rcases h c hc with rfl | hdigit
  · decide
  · obtain ⟨hlow, -⟩ : 48 ≤ c.toNat ∧ c.toNat ≤ 57 := Char.isDigit_iff_toNat.1 hdigit
    rw [Text.decimalValue?_of_isDigit hdigit]
    simp only [Nat.add_sub_cancel' hlow, Char.ofNat_toNat, id]

theorem readDecimal?_digits {ds : List Char} (hds : Json.AllDigits ds) (hne : ds ≠ []) :
    readDecimal? ds = some (Json.digitsValue ds, 0) := by
  have hspan : ds.span Char.isDigit = (ds, []) := by
    have hends : Json.spanDigits (ds ++ []) = (ds, []) := Json.spanDigits_append hds (by rintro c ⟨⟩)
    rwa [List.append_nil] at hends
  unfold readDecimal?
  simp only [hspan]
  rw [if_neg (by simp [hne]), List.append_nil]
  rfl

theorem ofDecimal_int (m : Int) : Binary64.ofDecimal (m < 0) m.natAbs 0 = Binary64.ofInt m := by
  rcases eq_or_ne m 0 with rfl | hm
  · have hzero : nearestUnits (0 * oneUnit) 1 = 0 := by
      rw [Nat.zero_mul]
      exact nearestUnits_self (Nat.zero_mod _)
    have hof : Binary64.ofInt 0 = .ofUnits (decide ((0 : Int) < 0))
        (nearestUnits ((0 : Int).natAbs * oneUnit) 1) := rfl
    rw [hof, Int.natAbs_zero, hzero, Binary64.ofDecimal, if_pos rfl, Binary64.zero]
  · rw [Binary64.ofDecimal, if_neg (Int.natAbs_ne_zero.2 hm), if_pos (le_refl 0),
      if_neg (by omega)]
    exact congrArg (Binary64.ofRatio _ · 1) (Nat.mul_one _)

/-- The characters of the text of an integer. -/
theorem toList_intText (m : Int) :
    (intText m).toList = Json.signText (m < 0) ++ Nat.toDigits 10 m.natAbs := by
  by_cases hm : m < 0 <;> simp [intText, digitsText, Json.signText, hm]

theorem mem_intText {m : Int} {c : Char} (h : c ∈ (intText m).toList) :
    c = '-' ∨ c.isDigit = true := by
  rw [toList_intText, List.mem_append] at h
  rcases h with h | h
  · unfold Json.signText at h
    split at h
    · exact .inl (List.mem_singleton.1 h)
    · exact absurd h List.not_mem_nil
  · exact .inr (Json.allDigits_toDigits _ c h)

theorem isBlank_of_mem_intText {m : Int} {c : Char} (h : c ∈ (intText m).toList) :
    Text.isBlank c = false := by
  rcases mem_intText h with rfl | hdigit
  · decide
  · exact Text.isBlank_of_isDecimal (Text.isDecimal_of_isDigit hdigit)

/-- The text of an integer is read as the binary64 number nearest to it. -/
theorem readReal?_intText (m : Int) : readReal? (intText m) = some (.ofInt m) := by
  have hdigits := Json.allDigits_toDigits m.natAbs
  have hsign : readSign (intText m).toList = (decide (m < 0), Nat.toDigits 10 m.natAbs) := by
    rw [toList_intText]
    cases decide (m < 0) with
    | true => rfl
    | false => exact Arithmetic.readSign_digits hdigits
  have hlower : (Nat.toDigits 10 m.natAbs).map Char.toLower = Nat.toDigits 10 m.natAbs :=
    (List.map_congr_left fun c hc => toLower_of_isDigit (hdigits c hc)).trans (List.map_id _)
  -- A word would have a letter in it.
  have hword : ∀ word : String, 'n' ∈ word.toList →
      String.ofList (Nat.toDigits 10 m.natAbs) ≠ word := by
    rintro _ hletter rfl
    rw [String.toList_ofList] at hletter
    exact absurd (hdigits 'n' hletter) (by decide)
  have hplain := plainDigits_eq fun c (hc : c ∈ (intText m).toList) => mem_intText hc
  have hunderscore : ∀ c ∈ (intText m).toList, c ≠ '_' := by
    rintro c hc rfl
    rcases mem_intText hc with h | h <;> exact absurd h (by decide)
  rw [readReal?, Text.trimNumber_of_not_isBlank fun c => isBlank_of_mem_intText, hplain,
    Arithmetic.dropUnderscores_eq hunderscore]
  simp only [hsign, hlower]
  rw [decide_eq_false (hword "inf" (by decide)), decide_eq_false (hword "infinity" (by decide)),
    if_neg (by decide), if_neg (hword "nan" (by decide)),
    readDecimal?_digits hdigits Nat.toDigits_ne_nil, Json.digitsValue_toDigits]
  exact congrArg some (ofDecimal_int m)

namespace Value

/-- A text that spells an integer stands for the nearest integer that is a binary64 number, or for
an infinite number. -/
theorem textNumber?_intText (m : Int) :
    (m.natAbs < 2 ^ 1024 - 2 ^ 970 ∧
      ∃ r, Binary64.IsNearest m r ∧ textNumber? (intText m) = some (.int r)) ∨
    2 ^ 1024 - 2 ^ 970 ≤ m.natAbs ∧
      textNumber? (intText m) = some (.real (.infinite (m < 0))) := by
  have hstrip : Text.strip (intText m) = intText m := by
    rw [Text.strip, Text.trim_of_not_isBlank fun c => isBlank_of_mem_intText, String.ofList_toList]
  have hne : intText m ≠ "" := by
    intro hempty
    have hnil := toList_intText m
    rw [hempty] at hnil
    exact Nat.toDigits_ne_nil (List.append_eq_nil_iff.1 hnil.symm).2
  have hpoint : (intText m).toList.contains '.' = false := by
    rw [Bool.eq_false_iff]
    intro hmem
    rcases mem_intText (List.contains_iff_mem.1 hmem) with h | h <;> exact absurd h (by decide)
  have hnumber : textNumber? (intText m) =
      if (Binary64.ofInt m).isNaN then none
      else if (Binary64.ofInt m).isInteger then (Binary64.ofInt m).truncate?.map .int
      else some (.real (Binary64.ofInt m)) := by
    unfold textNumber?
    simp only [hstrip, readReal?_intText, hpoint, if_neg hne, Bool.not_false, Bool.and_true]
  rcases Binary64.ofInt_cases m with ⟨hm, r, h, hnearest, hsign, hof⟩ | ⟨hm, hof⟩
  · refine .inl ⟨hm, r, hnearest, ?_⟩
    have hinteger : (Binary64.ofInt m).isInteger = true := by
      rw [hof]
      simp only [Binary64.isInteger, Nat.mul_mod_left, decide_true]
    have htruncate : (Binary64.ofInt m).truncate? = some r := by
      rw [hof, Binary64.truncate?, Nat.mul_div_cancel _ Binary64.oneUnit_pos]
      simp only [decide_eq_true_eq, hsign]
    rw [hnumber, hinteger, htruncate, hof]
    rfl
  · refine .inr ⟨hm, ?_⟩
    rw [hnumber, hof]
    rfl

/-! ## Comparing -/

/-- An integer and a text have an order, and all conditions on the two follow it. -/
structure Compares (n : Int) (t : String) (o : Ordering) : Prop where
  equals : looselyEqual (.int n) (.text t) = true ↔ o = .eq
  equals_swapped : looselyEqual (.text t) (.int n) = true ↔ o = .eq
  greaterThan : satisfies (.int n) (some .greaterThan) (.text t) = true ↔ o = .gt
  lessThan : satisfies (.int n) (some .lessThan) (.text t) = true ↔ o = .lt
  greaterOrEqual : satisfies (.int n) (some .greaterOrEqual) (.text t) = true ↔ o ≠ .lt
  lessOrEqual : satisfies (.int n) (some .lessOrEqual) (.text t) = true ↔ o ≠ .gt

/-- The order is that of the integer and of the number for which the text stands. -/
theorem compares_of_number {n : Int} {t : String} {k : Number} {o : Ordering}
    (hk : textNumber? t = some k) (hleft : (Number.int n).compare? k = some o)
    (hright : k.compare? (.int n) = some o.swap) : Compares n t o := by
  have horder : looseOrder? (.int n) (.text t) = some o := by
    simp only [looseOrder?, number?, hk, hleft]
  have hequal : looselyEqual (.int n) (.text t) = (o == .eq) := by
    simp only [looselyEqual, number?, hk, Number.sameValue, hleft]
    rfl
  have hswapped : looselyEqual (.text t) (.int n) = (o.swap == .eq) := by
    simp only [looselyEqual, number?, hk, Number.sameValue, hright]
    rfl
  constructor <;> simp only [satisfies, horder, hequal, hswapped] <;> cases o <;> decide

/-- **An integer compares with the text of another one as with the nearest binary64 number**, which
is an integer or infinite, and by value with the texts of just those integers that are binary64
numbers. -/
theorem compares_integer_text (m : Int) :
    (m.natAbs < 2 ^ 1024 - 2 ^ 970 ∧ (∃ r, Binary64.IsNearest m r ∧
        ∀ n, Compares n (toText (.int m)) (compare n r)) ∨
      2 ^ 1024 - 2 ^ 970 ≤ m.natAbs ∧
        ∀ n, Compares n (toText (.int m)) (if m < 0 then .gt else .lt)) ∧
    ((∀ n, Compares n (toText (.int m)) (compare n m)) ↔ Binary64.IsExact m) := by
  have htext : toText (.int m) = intText m := rfl
  rw [htext]
  rcases textNumber?_intText m with ⟨hm, r, hnearest, hnumber⟩ | ⟨hm, hnumber⟩
  · have hcompares : ∀ n, Compares n (intText m) (compare n r) := by
      intro n
      refine compares_of_number hnumber rfl ?_
      rw [← Std.OrientedOrd.eq_swap]
      rfl
    refine ⟨.inl ⟨hm, r, hnearest, hcompares⟩, fun hvalue => ?_, fun hexact => ?_⟩
    · -- The integer equals its own text, so it is the nearest binary64 number.
      have hequals := (hcompares m).equals.symm.trans (hvalue m).equals
      have hmr : m = r := compare_eq_iff_eq.1 (hequals.2 (compare_eq_iff_eq.2 rfl))
      exact hmr ▸ hnearest.isExact
    · rwa [hnearest.eq_self hexact] at hcompares
  · have hcompares : ∀ n, Compares n (intText m) (if m < 0 then .gt else .lt) := by
      intro n
      refine compares_of_number hnumber ?_ ?_ <;> by_cases hsign : m < 0 <;>
        simp [Number.compare?, Binary64.compareInt?, hsign]
    refine ⟨.inr ⟨hm, hcompares⟩, fun hvalue => ?_, fun hexact => ?_⟩
    · have hequals := (hcompares m).equals.symm.trans (hvalue m).equals
      have hsame := hequals.2 (compare_eq_iff_eq.2 rfl)
      split at hsame <;> cases hsame
    · exact absurd hexact.natAbs_lt (Nat.not_lt.2 hm)

/-- An integer that is no binary64 number is not equal to its own text. -/
theorem odd_differs_from_text :
    looselyEqual (.int 9007199254740993) (.text (toText (.int 9007199254740993))) = false := by
  decide +kernel

end Value

end Workgraph
