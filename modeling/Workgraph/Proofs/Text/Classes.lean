import Mathlib.Data.List.TakeWhile
import Workgraph.Number.Numeral
import Workgraph.Text.Letter
/-!
# Characters of different classes

Blanks, decimal digits and letters are told apart by tables of code points. Tables whose ranges lie
apart have no character in common (`inRanges_eq_false`), so no digit and no letter is a blank, and
blanks around a text that starts and ends with other characters can be taken away (`strip_between`).
-/

namespace Workgraph.Text

/-- The ranges of two tables lie apart. -/
def RangesApart (xs ys : List (Nat × Nat)) : Prop := ∀ x ∈ xs, ∀ y ∈ ys, x.2 < y.1 ∨ y.2 < x.1

instance (xs ys : List (Nat × Nat)) : Decidable (RangesApart xs ys) :=
  inferInstanceAs (Decidable (∀ x ∈ xs, ∀ y ∈ ys, x.2 < y.1 ∨ y.2 < x.1))

theorem inRanges_eq_true {xs : List (Nat × Nat)} {n : Nat} :
    inRanges xs n = true ↔ ∃ x ∈ xs, x.1 ≤ n ∧ n ≤ x.2 := by
  simp [inRanges]

/-- **Tables that lie apart have nothing in common.** -/
theorem inRanges_eq_false {xs ys : List (Nat × Nat)} (h : RangesApart xs ys) {n : Nat}
    (hn : inRanges xs n = true) : inRanges ys n = false := by
  rw [Bool.eq_false_iff]
  intro hn'
  obtain ⟨x, hx, hlow, hhigh⟩ := inRanges_eq_true.1 hn
  obtain ⟨y, hy, hlow', hhigh'⟩ := inRanges_eq_true.1 hn'
  have hapart := h x hx y hy
  omega

/-! ## Decimal digits -/

/-- The runs of decimal digits, as a table. -/
def decimalRanges : List (Nat × Nat) := zeroDigits.map fun z => (z, z + 9)

theorem decimalValue?_eq_some {c : Char} {d : Nat} (h : decimalValue? c = some d) :
    inRanges decimalRanges c.toNat = true ∧ d < 10 := by
  obtain ⟨z, hz, hd⟩ := List.exists_of_findSome?_eq_some h
  split at hd
  · rename_i hrange
    cases hd
    refine ⟨inRanges_eq_true.2 ⟨(z, z + 9), List.mem_map.2 ⟨z, hz, rfl⟩, hrange.1, ?_⟩, ?_⟩ <;>
      omega
  · cases hd

theorem isDecimal_iff {c : Char} : isDecimal c = true ↔ ∃ d, decimalValue? c = some d :=
  Option.isSome_iff_exists

/-- ASCII digits are decimal digits. -/
theorem decimalValue?_of_isDigit {c : Char} (h : c.isDigit = true) :
    decimalValue? c = some (c.toNat - 48) := by
  obtain ⟨hlow, hhigh⟩ : 48 ≤ c.toNat ∧ c.toNat ≤ 57 := Char.isDigit_iff_toNat.1 h
  have hrange : 48 ≤ c.toNat ∧ c.toNat < 48 + 10 := ⟨hlow, by omega⟩
  rw [decimalValue?, zeroDigits, List.findSome?_cons, if_pos hrange]

theorem isDecimal_of_isDigit {c : Char} (h : c.isDigit = true) : isDecimal c = true :=
  isDecimal_iff.2 ⟨_, decimalValue?_of_isDigit h⟩

theorem isBlank_of_isDecimal {c : Char} (h : isDecimal c = true) : isBlank c = false := by
  obtain ⟨d, hd⟩ := isDecimal_iff.1 h
  exact inRanges_eq_false (by decide) (decimalValue?_eq_some hd).1

/-- A blank is no digit of any kind. -/
theorem isDigit_of_isBlank {c : Char} (h : isBlank c = true) : isDigit c = false := by
  have hmark : inRanges digitMarkRanges c.toNat = false := inRanges_eq_false (by decide) h
  have hdecimal : isDecimal c = false := by
    rw [Bool.eq_false_iff]
    intro hc
    rw [isBlank_of_isDecimal hc] at h
    cases h
  rw [isDigit, hdecimal, hmark]
  rfl

theorem isBlank_of_isAlphanumeric {c : Char} (h : isAlphanumeric c = true) : isBlank c = false :=
  inRanges_eq_false (by decide +kernel) h

/-- White space around numbers is white space. -/
theorem isBlank_of_isNumberBlank {c : Char} (h : isNumberBlank c = true) : isBlank c = true := by
  unfold isNumberBlank at h
  split at h
  · refine inRanges_eq_true.2 ?_
    simp only [Bool.or_eq_true, decide_eq_true_eq, Bool.and_eq_true] at h
    rcases h with rfl | ⟨hlow, hhigh⟩
    · exact ⟨(0x1C, 0x20), by decide, by decide, by decide⟩
    · exact ⟨(0x9, 0xD), by decide, hlow, hhigh⟩
  · exact h

/-! ## White space at the ends -/

/-- Characters that neither start nor end with one that is to be taken away. -/
theorem dropWhile_ends {p : Char → Bool} {cs : List Char} (hfirst : ∀ c ∈ cs.head?, p c = false)
    (hlast : ∀ c ∈ cs.getLast?, p c = false) :
    ((cs.dropWhile p).reverse.dropWhile p).reverse = cs := by
  have hkeep (ds : List Char) (h : ∀ c ∈ ds.head?, p c = false) : ds.dropWhile p = ds := by
    cases ds with
    | nil => rfl
    | cons d ds => rw [List.dropWhile_cons, h d rfl]; rfl
  have hback : ∀ c ∈ cs.reverse.head?, p c = false := by
    rw [List.head?_reverse]
    exact hlast
  rw [hkeep cs hfirst, hkeep cs.reverse hback, List.reverse_reverse]

section
variable {cs : List Char} (h : ∀ c ∈ cs, isBlank c = false)
include h

/-- Nothing is taken away from characters that are not blank. -/
theorem trim_of_not_isBlank : trim cs = cs :=
  dropWhile_ends (fun c hc => h c (List.mem_of_mem_head? hc))
    fun c hc => h c (List.mem_of_mem_getLast? hc)

theorem trimNumber_of_not_isBlank : trimNumber cs = cs := by
  have hnot : ∀ c ∈ cs, isNumberBlank c = false := by
    intro c hc
    rw [Bool.eq_false_iff]
    intro hblank
    have hnot := h c hc
    rw [isBlank_of_isNumberBlank hblank] at hnot
    cases hnot
  exact dropWhile_ends (fun c hc => hnot c (List.mem_of_mem_head? hc))
    fun c hc => hnot c (List.mem_of_mem_getLast? hc)

end

/-- Blanks around characters that neither start nor end with one. -/
theorem trim_between {before cs after : List Char} (hbefore : ∀ c ∈ before, isBlank c = true)
    (hafter : ∀ c ∈ after, isBlank c = true) (hne : cs ≠ [])
    (hfirst : ∀ c ∈ cs.head?, isBlank c = false) (hlast : ∀ c ∈ cs.getLast?, isBlank c = false) :
    trim (before ++ (cs ++ after)) = cs := by
  obtain ⟨d, ds, rfl⟩ := List.exists_cons_of_ne_nil hne
  have hd : isBlank d = false := hfirst d rfl
  have hfront : (before ++ (d :: ds ++ after)).dropWhile isBlank = d :: ds ++ after := by
    rw [List.dropWhile_append_of_pos hbefore, List.cons_append, List.dropWhile_cons, hd]
    rfl
  have hends := dropWhile_ends hfirst hlast
  rw [List.dropWhile_cons, hd, if_neg Bool.false_ne_true] at hends
  have hback : ∀ c ∈ after.reverse, isBlank c = true := fun c hc => hafter c (List.mem_reverse.1 hc)
  rw [trim, hfront, List.reverse_append, List.dropWhile_append_of_pos hback]
  exact hends

/-- A text of blanks, as all are taken away from it. -/
theorem isBlank_of_trim_eq_nil {cs : List Char} (h : trim cs = []) : ∀ c ∈ cs, isBlank c = true := by
  rw [trim, List.reverse_eq_nil_iff, List.dropWhile_eq_nil_iff] at h
  cases hfront : cs.dropWhile isBlank with
  | nil => exact List.dropWhile_eq_nil_iff.1 hfront
  | cons d ds =>
    have hd : isBlank d = true := h d (by rw [hfront, List.mem_reverse]; exact List.mem_cons_self)
    have hnot := List.head_dropWhile_not isBlank (l := cs) (by rw [hfront]; exact List.cons_ne_nil d ds)
    simp only [hfront, List.head_cons] at hnot
    rw [hd] at hnot
    cases hnot

end Workgraph.Text
