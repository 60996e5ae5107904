import Mathlib.Data.List.TakeWhile
import Mathlib.Tactic
import Workgraph.Display.Markup
/-!
# Tags in escaped texts

A tag is an opening bracket before which an even number of backslashes stand, with a style behind it
up to the first closing bracket. An escaped text has no tag in it (`readsAsStyle_of_escape`). Escaping
adds nothing but backslashes, so the brackets of a text are those of the escaped text, and a text
whose last bracket opens what would be a style is left open by it (`exists_opening_iff`).
-/

namespace Workgraph.Markup

/-! ## Backslashes at the end -/

/-- The number of backslashes at the end. -/
def slashes (cs : List Char) : Nat := (cs.reverse.takeWhile (· = '\\')).length

theorem slashes_replicate (n : Nat) : slashes (List.replicate n '\\') = n := by
  simp [slashes]

/-- What stands before another character does not count. -/
theorem slashes_append_cons {c : Char} (hc : c ≠ '\\') (before after : List Char) :
    slashes (before ++ c :: after) = slashes after := by
  unfold slashes
  rw [List.reverse_append, List.reverse_cons, List.append_assoc, List.takeWhile_append]
  split
  · rename_i hall
    rw [List.singleton_append, List.takeWhile_cons_of_neg (by simpa using hc), List.append_nil]
    exact hall.symm
  · rfl

theorem slashes_append {before : List Char} (h : slashes before = 0) (after : List Char) :
    slashes (before ++ after) = slashes after := by
  unfold slashes at h ⊢
  rw [List.reverse_append, List.takeWhile_append]
  split
  · rename_i hall
    rw [List.length_append, h, Nat.add_zero, hall]
  · rfl

/-! ## Brackets -/

/-- The square brackets. -/
def isBracket (c : Char) : Bool := c = '[' || c = ']'

/-- Characters without a square bracket among them. -/
def NoBracket (cs : List Char) : Prop := ∀ c ∈ cs, isBracket c = false

instance (cs : List Char) : Decidable (NoBracket cs) :=
  -- Named, for there is also an instance that tries all characters.
  cs.decidableBAll _

/-- The first square bracket. -/
def firstBracket? (cs : List Char) : Option Char := cs.find? isBracket

theorem firstBracket?_append (xs ys : List Char) :
    firstBracket? (xs ++ ys) = (firstBracket? xs).or (firstBracket? ys) := List.find?_append

theorem firstBracket?_eq_none {cs : List Char} : firstBracket? cs = none ↔ NoBracket cs := by
  simp [firstBracket?, NoBracket]

/-- A first bracket, and what stands before it. -/
theorem firstBracket?_eq_some {cs : List Char} {b : Char} : firstBracket? cs = some b ↔
    isBracket b = true ∧ ∃ before after, cs = before ++ b :: after ∧ NoBracket before := by
  simp [firstBracket?, NoBracket, List.find?_eq_some_iff_append]

/-- A text with brackets, cut at the last of them. -/
theorem exists_last_bracket {cs : List Char} (h : ¬ NoBracket cs) :
    ∃ before b after, cs = before ++ b :: after ∧ isBracket b = true ∧ NoBracket after := by
  have hsome : (firstBracket? cs.reverse).isSome = true := by
    rw [Option.isSome_iff_ne_none]
    intro hnone
    exact h fun c hc => firstBracket?_eq_none.1 hnone c (List.mem_reverse.2 hc)
  obtain ⟨b, hb⟩ := Option.isSome_iff_exists.1 hsome
  obtain ⟨hbracket, after, before, heq, hafter⟩ := firstBracket?_eq_some.1 hb
  refine ⟨before.reverse, b, after.reverse, ?_, hbracket, fun c hc => ?_⟩
  · have hreverse := congrArg List.reverse heq
    simpa using hreverse
  · exact hafter c (List.mem_reverse.1 hc)

/-- There is one way to cut a text at its last bracket. -/
theorem last_bracket_unique {before before' after after' : List Char} {b b' : Char}
    (h : before ++ b :: after = before' ++ b' :: after') (hb : isBracket b = true)
    (hb' : isBracket b' = true) (hafter : NoBracket after) (hafter' : NoBracket after') :
    before = before' ∧ b = b' ∧ after = after' := by
  rcases List.append_eq_append_iff.1 h with ⟨between, rfl, heq⟩ | ⟨between, rfl, heq⟩
  · cases between with
    | nil =>
      cases heq
      exact ⟨(List.append_nil _).symm, rfl, rfl⟩
    | cons c between =>
      cases heq
      rw [hafter b' (List.mem_append_right between List.mem_cons_self)] at hb'
      cases hb'
  · cases between with
    | nil =>
      cases heq
      exact ⟨List.append_nil _, rfl, rfl⟩
    | cons c between =>
      cases heq
      rw [hafter' b (List.mem_append_right between List.mem_cons_self)] at hb
      cases hb

/-! ## Styles -/

/-- Characters that begin like a style. -/
def BeginsStyle (cs : List Char) : Prop := ∃ c ∈ cs.head?, beginsStyle c = true

instance (cs : List Char) : Decidable (BeginsStyle cs) :=
  cs.head?.decidableExistsMem

theorem isBracket_of_beginsStyle {c : Char} (h : beginsStyle c = true) : isBracket c = false := by
  rw [Bool.eq_false_iff]
  intro hbracket
  simp only [isBracket, Bool.or_eq_true, decide_eq_true_eq] at hbracket
  rcases hbracket with rfl | rfl <;> exact absurd h (by decide)

theorem BeginsStyle.ne_nil {cs : List Char} (h : BeginsStyle cs) : cs ≠ [] := by
  rintro rfl
  obtain ⟨c, hc, -⟩ := h
  cases hc

theorem BeginsStyle.of_append {cs ds : List Char} (h : BeginsStyle (cs ++ ds)) (hne : cs ≠ []) :
    BeginsStyle cs := by
  obtain ⟨c, rest, rfl⟩ := List.exists_cons_of_ne_nil hne
  exact h

theorem BeginsStyle.append {cs : List Char} (h : BeginsStyle cs) (ds : List Char) :
    BeginsStyle (cs ++ ds) := by
  obtain ⟨c, rest, rfl⟩ := List.exists_cons_of_ne_nil h.ne_nil
  exact h

/-- What reads as a style begins like one and reaches a closing bracket before an opening one. -/
theorem readsAsStyle_iff {cs : List Char} :
    readsAsStyle cs = true ↔ BeginsStyle cs ∧ firstBracket? cs = some ']' := by
  cases cs with
  | nil => simp [readsAsStyle, BeginsStyle]
  | cons c rest =>
    have hbegins : BeginsStyle (c :: rest) ↔ beginsStyle c = true := by simp [BeginsStyle]
    have hfind : (rest.dropWhile fun d => d ≠ '[' && d ≠ ']').head? = firstBracket? rest := by
      rw [firstBracket?, List.find?_eq_head?_dropWhile_not]
      congr 2
      funext d
      simp [isBracket]
    rw [readsAsStyle, Bool.and_eq_true, hbegins, hfind, decide_eq_true_eq]
    refine and_congr_right fun h => ?_
    rw [firstBracket?, firstBracket?, List.find?_cons, isBracket_of_beginsStyle h]

/-! ## Escaping -/

theorem escapeFrom_slash (k : Nat) (rest : List Char) :
    escapeFrom k ('\\' :: rest) = escapeFrom (k + 1) rest := rfl

theorem escapeFrom_cons {c : Char} (hc : c ≠ '\\') (k : Nat) (rest : List Char) :
    escapeFrom k (c :: rest) =
      List.replicate (if c = '[' ∧ readsAsStyle rest = true then 2 * k + 1 else k) '\\' ++
        c :: escapeFrom 0 rest := by
  rw [escapeFrom]
  · by_cases h : c = '[' ∧ readsAsStyle rest = true
    · simp [h]
    · rw [if_neg h, if_neg (by simpa using h)]
  · exact hc

/-- Escaping adds nothing but backslashes. -/
theorem filter_escapeFrom (k : Nat) (cs : List Char) :
    (escapeFrom k cs).filter (· ≠ '\\') = cs.filter (· ≠ '\\') := by
  induction cs generalizing k with
  | nil => simp [escapeFrom]
  | cons c rest ih =>
    by_cases hc : c = '\\'
    · subst hc
      rw [escapeFrom_slash, ih]
      simp
    · rw [escapeFrom_cons hc, List.filter_append, List.filter_cons, List.filter_cons, ih]
      simp

/-- Brackets stay in their order, whatever backslashes there are. -/
theorem firstBracket?_filter (cs : List Char) :
    firstBracket? (cs.filter (· ≠ '\\')) = firstBracket? cs := by
  unfold firstBracket?
  rw [List.find?_filter]
  congr 1
  funext c
  have hnot : isBracket c = true → c ≠ '\\' := by
    rintro h rfl
    exact absurd h (by decide)
  cases h : isBracket c
  · simp
  · simpa using hnot h

theorem firstBracket?_escapeFrom (k : Nat) (cs : List Char) :
    firstBracket? (escapeFrom k cs) = firstBracket? cs := by
  rw [← firstBracket?_filter, filter_escapeFrom, firstBracket?_filter]

/-- Backslashes that are still to be written come first. -/
theorem exists_escapeFrom_succ (k : Nat) (cs : List Char) :
    ∃ rest, escapeFrom (k + 1) cs = '\\' :: rest := by
  induction cs generalizing k with
  | nil => exact ⟨_, List.replicate_succ⟩
  | cons c rest ih =>
    by_cases hc : c = '\\'
    · subst hc
      exact ih (k + 1)
    · rw [escapeFrom_cons hc]
      split
      · exact ⟨_, rfl⟩
      · exact ⟨_, rfl⟩

theorem beginsStyle_escapeFrom (cs : List Char) :
    BeginsStyle (escapeFrom 0 cs) ↔ BeginsStyle cs := by
  cases cs with
  | nil => rfl
  | cons c rest =>
    by_cases hc : c = '\\'
    · subst hc
      obtain ⟨more, hmore⟩ := exists_escapeFrom_succ 0 rest
      rw [escapeFrom_slash, hmore]
      simp [BeginsStyle]
    · rw [escapeFrom_cons hc]
      split
      · rename_i h
        rw [h.1]
        simp [BeginsStyle, beginsStyle]
      · simp [BeginsStyle]

theorem readsAsStyle_escapeFrom (cs : List Char) :
    readsAsStyle (escapeFrom 0 cs) = readsAsStyle cs := by
  rw [Bool.eq_iff_iff, readsAsStyle_iff, readsAsStyle_iff, beginsStyle_escapeFrom,
    firstBracket?_escapeFrom]

/-- A character behind others that differ from it: it comes next, or later. -/
theorem eq_append_cases {xs ys u v : List Char} {c d : Char} (hd : d ∉ xs)
    (h : xs ++ c :: ys = u ++ d :: v) :
    (u = xs ∧ c = d ∧ v = ys) ∨ ∃ w, u = xs ++ c :: w ∧ ys = w ++ d :: v := by
  rcases List.append_eq_append_iff.1 h with ⟨w, rfl, hw⟩ | ⟨w, rfl, hw⟩
  · cases w with
    | nil =>
      cases hw
      exact .inl ⟨List.append_nil xs, rfl, rfl⟩
    | cons e w =>
      cases hw
      exact .inr ⟨w, rfl, rfl⟩
  · cases w with
    | nil =>
      cases hw
      exact .inl ⟨(List.append_nil u).symm, rfl, rfl⟩
    | cons e w =>
      cases hw
      exact absurd (List.mem_append_right u List.mem_cons_self) hd

theorem not_mem_replicate {c : Char} (hc : c ≠ '\\') (n : Nat) : c ∉ List.replicate n '\\' :=
  fun h => hc (List.eq_of_mem_replicate h)

/-- No bracket with an even number of backslashes before it reads as one of a style. -/
theorem readsAsStyle_of_escapeFrom (cs : List Char) : ∀ {k : Nat} {u v : List Char},
    escapeFrom k cs = u ++ '[' :: v → slashes u % 2 = 0 → readsAsStyle v = false := by
  induction cs with
  | nil =>
    intro k u v h
    have hmem : '[' ∈ escapeFrom k [] := h ▸ List.mem_append_right u List.mem_cons_self
    exact absurd hmem (not_mem_replicate (by decide) k)
  | cons c rest ih =>
    intro k u v h heven
    by_cases hc : c = '\\'
    · subst hc
      exact ih h heven
    · rw [escapeFrom_cons hc] at h
      rcases eq_append_cases (not_mem_replicate (by decide) _) h with ⟨rfl, rfl, rfl⟩ | ⟨w, rfl, hw⟩
      · -- The bracket is the one before which the backslashes have been put.
        rw [slashes_replicate] at heven
        rw [readsAsStyle_escapeFrom]
        split at heven
        · omega
        · rename_i hstyle
          simpa using hstyle
      · rw [slashes_append_cons hc] at heven
        exact ih hw heven

/-- Without an opening bracket nothing is escaped. -/
theorem escapeFrom_of_not_mem {cs : List Char} (h : '[' ∉ cs) (k : Nat) :
    escapeFrom k cs = List.replicate k '\\' ++ cs := by
  induction cs generalizing k with
  | nil => rw [List.append_nil]; rfl
  | cons c rest ih =>
    have hrest : '[' ∉ rest := fun hmem => h (List.mem_cons_of_mem c hmem)
    by_cases hc : c = '\\'
    · subst hc
      rw [escapeFrom_slash, ih hrest, List.replicate_succ', List.append_assoc]
      rfl
    · have hopening : ¬ (c = '[' ∧ readsAsStyle rest = true) := by
        rintro ⟨rfl, -⟩
        exact h List.mem_cons_self
      rw [escapeFrom_cons hc, if_neg hopening, ih hrest]
      rfl

/-- From the last bracket on nothing is escaped, and the backslashes before it are kept. -/
theorem escapeFrom_last {b : Char} {v : List Char} (hb : isBracket b = true) (hv : NoBracket v)
    (u : List Char) (k : Nat) : ∃ w, escapeFrom k (u ++ b :: v) = w ++ b :: v ∧
      slashes w = slashes (List.replicate k '\\' ++ u) := by
  have hslash : b ≠ '\\' := by
    rintro rfl
    exact absurd hb (by decide)
  induction u generalizing k with
  | nil =>
    have hopening : '[' ∉ v := fun hmem => absurd (hv '[' hmem) (by decide)
    have hstyle : ¬ (b = '[' ∧ readsAsStyle v = true) := by
      rintro ⟨-, hreads⟩
      obtain ⟨-, hfirst⟩ := readsAsStyle_iff.1 hreads
      rw [firstBracket?_eq_none.2 hv] at hfirst
      cases hfirst
    refine ⟨List.replicate k '\\', ?_, by rw [List.append_nil]⟩
    rw [List.nil_append, escapeFrom_cons hslash, if_neg hstyle, escapeFrom_of_not_mem hopening]
    rfl
  | cons c u ih =>
    by_cases hc : c = '\\'
    · subst hc
      obtain ⟨w, hw, hslashes⟩ := ih (k + 1)
      refine ⟨w, hw, ?_⟩
      rw [hslashes, List.replicate_succ', List.append_assoc]
      rfl
    · obtain ⟨w, hw, hslashes⟩ := ih 0
      rw [List.cons_append, escapeFrom_cons hc, hw]
      refine ⟨_ ++ c :: w, by rw [List.append_assoc]; rfl, ?_⟩
      rw [slashes_append_cons hc, slashes_append_cons hc, hslashes]
      rfl

/-! ## Whole texts -/

theorem closeEnd_cases (cs : List Char) : closeEnd cs = cs ∨ closeEnd cs = cs ++ ['\\'] := by
  unfold closeEnd
  split
  · exact .inl rfl
  · exact .inr rfl
  · exact .inl rfl

theorem toList_escape (s : String) : (escape s).toList = closeEnd (escapeFrom 0 s.toList) :=
  String.toList_ofList

theorem firstBracket?_concat (cs : List Char) : firstBracket? (cs ++ ['\\']) = firstBracket? cs := by
  rw [firstBracket?_append]
  exact Option.or_none

theorem firstBracket?_escape (s : String) :
    firstBracket? (escape s).toList = firstBracket? s.toList := by
  have hescape := firstBracket?_escapeFrom 0 s.toList
  rw [toList_escape]
  rcases closeEnd_cases (escapeFrom 0 s.toList) with h | h
  · rwa [h]
  · rwa [h, firstBracket?_concat]

/-- What follows a bracket in an escaped text follows it in the text before its end was closed. -/
theorem exists_of_escape {s : String} {u v : List Char} (h : (escape s).toList = u ++ '[' :: v) :
    ∃ v', escapeFrom 0 s.toList = u ++ '[' :: v' ∧ (v = v' ∨ v = v' ++ ['\\']) := by
  rw [toList_escape] at h
  rcases closeEnd_cases (escapeFrom 0 s.toList) with hend | hend
  · exact ⟨v, hend ▸ h, .inl rfl⟩
  · rw [hend] at h
    rcases List.eq_nil_or_concat v with rfl | ⟨v', c, rfl⟩
    · have hlast := congrArg List.getLast? h
      simp at hlast
    · rw [List.concat_eq_append, ← List.cons_append, ← List.append_assoc] at h
      obtain ⟨heq, hc⟩ := List.append_inj' h rfl
      exact ⟨v', heq, .inr (by rw [hc, List.concat_eq_append])⟩

theorem BeginsStyle.of_concat {cs ds : List Char} (h : BeginsStyle (cs ++ '\\' :: ds)) :
    BeginsStyle cs := by
  refine h.of_append ?_
  rintro rfl
  obtain ⟨c, hc, hstyle⟩ := h
  cases hc
  exact absurd hstyle (by decide)

/-- **An escaped text has no tag in it.** -/
theorem readsAsStyle_of_escape {s : String} {u v : List Char}
    (h : (escape s).toList = u ++ '[' :: v) (heven : slashes u % 2 = 0) :
    readsAsStyle v = false := by
  obtain ⟨v', hv', rfl | rfl⟩ := exists_of_escape h
  · exact readsAsStyle_of_escapeFrom _ hv' heven
  · have hnot := readsAsStyle_of_escapeFrom _ hv' heven
    rw [Bool.eq_false_iff] at hnot ⊢
    intro hreads
    obtain ⟨hbegins, hfirst⟩ := readsAsStyle_iff.1 hreads
    rw [firstBracket?_concat] at hfirst
    exact hnot (readsAsStyle_iff.2 ⟨hbegins.of_concat, hfirst⟩)

/-! ## Texts left open -/

/-- A text ends in what would be a style if a closing bracket came next. -/
def LeavesOpen (s : String) : Prop :=
  ∃ u v, s.toList = u ++ '[' :: v ∧ slashes u % 2 = 0 ∧ BeginsStyle v ∧ NoBracket v

/-- A bracket of an escaped text opens a style, which is closed behind the text. -/
structure Opening (s : String) (before inner rest : List Char) : Prop where
  eq : (escape s).toList = before ++ '[' :: inner
  even : slashes before % 2 = 0
  noBracket : NoBracket inner
  begins : BeginsStyle (inner ++ rest)
  closes : firstBracket? rest = some ']'

theorem Opening.leavesOpen {s : String} {before inner rest : List Char}
    (h : Opening s before inner rest) (hrest : ¬ BeginsStyle rest) : LeavesOpen s := by
  obtain ⟨inner', heq, hinner⟩ := exists_of_escape h.eq
  have hbegins : BeginsStyle inner' := by
    have hbegins := h.begins
    rcases hinner with rfl | rfl
    · refine hbegins.of_append ?_
      rintro rfl
      exact hrest hbegins
    · rw [List.append_assoc] at hbegins
      exact hbegins.of_concat
  have hnone : NoBracket inner' := by
    intro c hc
    refine h.noBracket c ?_
    rcases hinner with rfl | rfl
    · exact hc
    · exact List.mem_append_left _ hc
  -- The bracket is the last one of the text too, and the backslashes before it are the same.
  have hsome : ¬ NoBracket s.toList := by
    rw [← firstBracket?_eq_none, ← firstBracket?_escapeFrom 0, heq, firstBracket?_eq_none]
    intro hbracket
    exact absurd (hbracket '[' (List.mem_append_right before List.mem_cons_self)) (by decide)
  obtain ⟨u, b, v, hs, hb, hv⟩ := exists_last_bracket hsome
  obtain ⟨w, hw, hslashes⟩ := escapeFrom_last hb hv u 0
  rw [hs, hw] at heq
  obtain ⟨rfl, rfl, rfl⟩ := last_bracket_unique heq hb (by decide) hv hnone
  exact ⟨u, v, hs, hslashes ▸ h.even, hbegins, hnone⟩

theorem LeavesOpen.exists_opening {s : String} (h : LeavesOpen s) {rest : List Char}
    (hrest : firstBracket? rest = some ']') : ∃ before inner, Opening s before inner rest := by
  obtain ⟨u, v, hs, heven, hbegins, hv⟩ := h
  obtain ⟨w, hw, hslashes⟩ := escapeFrom_last (by decide : isBracket '[' = true) hv u 0
  have hw_even : slashes w % 2 = 0 := by
    rw [hslashes]
    exact heven
  have hescape := toList_escape s
  rw [hs, hw] at hescape
  rcases closeEnd_cases (w ++ '[' :: v) with hend | hend
  · rw [hend] at hescape
    exact ⟨w, v, hescape, hw_even, hv, hbegins.append rest, hrest⟩
  · rw [hend, List.append_assoc, List.cons_append] at hescape
    refine ⟨w, v ++ ['\\'], hescape, hw_even, fun c hc => ?_, (hbegins.append _).append _, hrest⟩
    rcases List.mem_append.1 hc with hc | hc
    · exact hv c hc
    · rw [List.mem_singleton.1 hc]
      decide

/-- **An escaped text opens a style for what follows just if the text leaves one open** and the first
bracket of what follows closes it. -/
theorem exists_opening_iff {s : String} {rest : List Char} (hrest : ¬ BeginsStyle rest) :
    (∃ before inner, Opening s before inner rest) ↔
      LeavesOpen s ∧ firstBracket? rest = some ']' := by
  refine ⟨?_, fun ⟨hopen, hclose⟩ => hopen.exists_opening hclose⟩
  rintro ⟨before, inner, h⟩
  exact ⟨h.leavesOpen hrest, h.closes⟩

end Workgraph.Markup
