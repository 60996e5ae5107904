import Workgraph.Value.Path
import Workgraph.Proofs.Arithmetic.Layout
import Workgraph.Proofs.Arithmetic.Parsing
import Workgraph.Proofs.Number.DigitText
/-!
# How expressions fail

An expression comes to an integer or to a binary64 number that is finite and not integral, or it
fails. What it fails with is a fault of expressions, with two exceptions (`evaluate_answers`): digits
without a decimal value, such as superscripts, are cut from the text as if they belonged to a number,
and cannot be read as one; and the value of a placeholder that is no number cannot be shown if it
holds an integer of too many digits.
-/

namespace Workgraph.Arithmetic

/-! ## Faults of expressions -/

/-- An operation fails with a fault of expressions or with a defect of some kind, if at all. -/
def FailsBy {α : Type} (p : Defect → Prop) (result : Except Fault α) : Prop :=
  ∀ f, result = .error f → (∃ words behind, f = .expression words behind) ∨ ∃ d, f = .defect d ∧ p d

namespace FailsBy

variable {α β : Type} {p q : Defect → Prop}

theorem ok (a : α) : FailsBy p (.ok a) := by
  intro f hf
  cases hf

theorem expression (words : String) (behind : Option String) :
    FailsBy p (.error (.expression words behind) : Except Fault α) := by
  intro f hf
  cases hf
  exact .inl ⟨words, behind, rfl⟩

theorem defect {d : Defect} (h : p d) : FailsBy p (.error (.defect d) : Except Fault α) := by
  intro f hf
  cases hf
  exact .inr ⟨d, rfl, h⟩

theorem mono {r : Except Fault α} (h : FailsBy p r) (hpq : ∀ d, p d → q d) : FailsBy q r := by
  intro f hf
  rcases h f hf with hexpression | ⟨d, rfl, hd⟩
  · exact .inl hexpression
  · exact .inr ⟨d, rfl, hpq d hd⟩

theorem bind {r : Except Fault α} {k : α → Except Fault β} (h : FailsBy p r)
    (hk : ∀ a, r = .ok a → FailsBy p (k a)) : FailsBy p (r >>= k) := by
  cases r with
  | ok a => exact hk a rfl
  | error f =>
    intro g hg
    cases hg
    exact h f rfl

end FailsBy

/-! ## Numerals -/

/-- A digit without a decimal value. -/
def IsDigitMark (c : Char) : Prop := Text.isDigit c = true ∧ Text.isDecimal c = false

instance (c : Char) : Decidable (IsDigitMark c) :=
  inferInstanceAs (Decidable (Text.isDigit c = true ∧ Text.isDecimal c = false))

/-- A defect of a numeral that stands in some characters: it consists of digits and points, and one
of the digits has no decimal value. -/
def Misread (cs : List Char) (d : Defect) : Prop :=
  ∃ run, run <:+: cs ∧ (∀ c ∈ run, isNumberChar c = true) ∧ (∃ c ∈ run, IsDigitMark c) ∧
    (d = .numeral (String.ofList run) ∨ d = .realNumeral (String.ofList run))

theorem Misread.mono {cs ds : List Char} {d : Defect} (h : Misread cs d) (hcs : cs <:+: ds) :
    Misread ds d := by
  obtain ⟨run, hrun, hmark⟩ := h
  exact ⟨run, hrun.trans hcs, hmark⟩

theorem isNumberChar_of_isDigit {c : Char} (h : Text.isDigit c = true) : isNumberChar c = true := by
  rw [isNumberChar, h]
  rfl

section
variable {run : List Char} (hrun : ∀ c ∈ run, isNumberChar c = true)
include hrun

theorem trimNumber_run : trimNumber run = run := by
  refine Text.trimNumber_of_not_isBlank fun c hc => ?_
  rw [Bool.eq_false_iff]
  intro h
  have hnumber := isNumberChar_of_isBlank h
  rw [hrun c hc] at hnumber
  cases hnumber

/-- Digits are made plain, and what else belongs to numbers stays. -/
theorem mem_plainDigits_run {c : Char} (hc : c ∈ plainDigits run) :
    c.isDigit = true ∨ isNumberChar c = true := by
  obtain ⟨b, hb, rfl⟩ := List.mem_map.1 hc
  cases hd : Text.decimalValue? b with
  | none => exact .inr (hrun b hb)
  | some d => exact .inl (isDigit_ofNat d (Text.decimalValue?_eq_some hd).2).1

theorem ne_of_mem_plainDigits {mark : Char} (hdigit : mark.isDigit = false)
    (hnumber : isNumberChar mark = false) : ∀ c ∈ plainDigits run, c ≠ mark := by
  rintro c hc rfl
  rcases mem_plainDigits_run hrun hc with h | h
  · rw [hdigit] at h
    cases h
  · rw [hnumber] at h
    cases h

theorem dropUnderscores_run :
    dropUnderscores (plainDigits (trimNumber run)) = some (plainDigits run) := by
  rw [trimNumber_run hrun]
  exact dropUnderscores_eq (ne_of_mem_plainDigits hrun (by decide) (by decide))

theorem readSign_run : readSign (plainDigits run) = (false, plainDigits run) := by
  have hminus : ∀ c ∈ plainDigits run, c ≠ '-' :=
    ne_of_mem_plainDigits hrun (by decide) (by decide)
  have hplus : ∀ c ∈ plainDigits run, c ≠ '+' :=
    ne_of_mem_plainDigits hrun (by decide) (by decide)
  unfold readSign
  split
  · rename_i rest heq
    exact absurd rfl (hminus '-' (heq ▸ List.mem_cons_self))
  · rename_i rest heq
    exact absurd rfl (hplus '+' (heq ▸ List.mem_cons_self))
  · rfl

/-- A run with a character that has no decimal value is read as no integer. -/
theorem readInteger_run_marked (hmark : ∃ c ∈ run, Text.isDecimal c = false) :
    readInteger (String.ofList run) = .error (.numeral (String.ofList run)) := by
  obtain ⟨c, hc, hdecimal⟩ := hmark
  -- The character is kept as it is, and is no ASCII digit.
  have hkeeps : c ∈ plainDigits run := by
    have hnone : Text.decimalValue? c = none := by
      rwa [Text.isDecimal, Option.isSome_eq_false_iff, Option.isNone_iff_eq_none] at hdecimal
    refine List.mem_map.2 ⟨c, hc, ?_⟩
    rw [hnone]
  have hdigit : c.isDigit = false := by
    rw [Bool.eq_false_iff]
    intro h
    rw [Text.isDecimal_of_isDigit h] at hdecimal
    cases hdecimal
  have hall : (plainDigits run).all Char.isDigit = false := by
    rw [List.all_eq_false]
    exact ⟨c, hkeeps, by rw [hdigit]; exact Bool.false_ne_true⟩
  rw [readInteger, String.toList_ofList, dropUnderscores_run hrun]
  simp only [readSign_run hrun, hall, Bool.not_false, Bool.or_true, if_true]

/-- A run of digits is read as an integer unless one of them has no decimal value. -/
theorem readInteger_run_cases (hne : run ≠ []) (hlength : run.length ≤ maxNumeralDigits) :
    (∃ n, readInteger (String.ofList run) = .ok n) ∨
      readInteger (String.ofList run) = .error (.numeral (String.ofList run)) ∧
        ∃ c ∈ run, Text.isDecimal c = false := by
  by_cases hdecimal : ∀ c ∈ run, Text.isDecimal c = true
  · exact .inl ⟨_, readInteger_digits hdecimal hne hlength⟩
  · have hmark : ∃ c ∈ run, Text.isDecimal c = false := by simpa using hdecimal
    exact .inr ⟨readInteger_run_marked hrun hmark, hmark⟩

end

/-- Digits around a point are read, if there are any. -/
theorem readDecimal?_point {whole places : List Char} (hwhole : ∀ c ∈ whole, c.isDigit = true)
    (hplaces : ∀ c ∈ places, c.isDigit = true) (hne : whole ≠ [] ∨ places ≠ []) :
    (readDecimal? (whole ++ '.' :: places)).isSome = true := by
  have hcut : (whole ++ '.' :: places).span Char.isDigit = (whole, '.' :: places) :=
    Json.spanDigits_append hwhole (by rintro c ⟨⟩; decide)
  have hrest : places.span Char.isDigit = (places, []) := by
    have hends : Json.spanDigits (places ++ []) = (places, []) :=
      Json.spanDigits_append hplaces (by rintro c ⟨⟩)
    rwa [List.append_nil] at hends
  have hany : ¬ (whole.isEmpty && places.isEmpty) = true := by
    rcases hne with h | h <;> simp [h]
  unfold readDecimal?
  simp only [hcut, hrest]
  rw [if_neg hany]
  rfl

/-- Decimal digits around a point spell a number, if there are any. -/
theorem readReal?_point {whole places : List Char} (hwhole : ∀ c ∈ whole, Text.isDecimal c = true)
    (hplaces : ∀ c ∈ places, Text.isDecimal c = true) (hne : whole ≠ [] ∨ places ≠ []) :
    (readReal? (String.ofList (whole ++ '.' :: places))).isSome = true := by
  have hrun : ∀ c ∈ whole ++ '.' :: places, isNumberChar c = true := by
    intro c hc
    have hdigit : Text.isDecimal c = true → isNumberChar c = true := by
      intro h
      rw [isNumberChar, Text.isDigit, h]
      rfl
    rcases List.mem_append.1 hc with hc | hc
    · exact hdigit (hwhole c hc)
    · rcases List.mem_cons.1 hc with rfl | hc
      · decide
      · exact hdigit (hplaces c hc)
  have hplain : plainDigits (whole ++ '.' :: places) =
      plainDigits whole ++ '.' :: plainDigits places := by
    unfold plainDigits
    rw [List.map_append, List.map_cons]
    rfl
  -- A word would have a letter in it, and the point is none.
  have hword : ∀ word : String, '.' ∉ word.toList →
      String.ofList ((plainDigits (whole ++ '.' :: places)).map Char.toLower) ≠ word := by
    rintro _ hpoint rfl
    refine hpoint ?_
    rw [String.toList_ofList, hplain]
    simp
  have hsome := readDecimal?_point (isDigit_plainDigits hwhole) (isDigit_plainDigits hplaces)
    (hne.imp (mt List.map_eq_nil_iff.1) (mt List.map_eq_nil_iff.1))
  rw [readReal?, String.toList_ofList, dropUnderscores_run hrun]
  simp only [readSign_run hrun]
  rw [if_neg (by simp [hword]), if_neg (hword "nan" (by decide)), hplain, Option.isSome_map]
  exact hsome

theorem digitMark_of_not_isDecimal {c : Char} (hnumber : isNumberChar c = true)
    (hpoint : c ≠ '.') (hdecimal : Text.isDecimal c = false) : IsDigitMark c := by
  refine ⟨?_, hdecimal⟩
  unfold isNumberChar at hnumber
  simpa [hpoint] using hnumber

/-- A run with one point, and decimal digits around it, is read. So one that is not has a digit
without a decimal value. -/
theorem exists_digitMark_of_readReal? {run : List Char} (hrun : ∀ c ∈ run, isNumberChar c = true)
    (hpoint : '.' ∈ run) (hcount : ¬ 2 ≤ run.count '.') (hlone : run ≠ ['.'])
    (hnone : readReal? (String.ofList run) = none) : ∃ c ∈ run, IsDigitMark c := by
  by_contra hmark
  obtain ⟨whole, places, rfl⟩ := List.append_of_mem hpoint
  rw [List.count_append, List.count_cons_self] at hcount
  have hdecimal : ∀ c ∈ whole ++ '.' :: places, c ≠ '.' → Text.isDecimal c = true := by
    intro c hc hne
    by_contra h
    exact hmark ⟨c, hc, digitMark_of_not_isDecimal (hrun c hc) hne (Bool.eq_false_iff.2 h)⟩
  -- The run has one point only, so that neither side of it has another.
  have hwhole : ∀ c ∈ whole, Text.isDecimal c = true := by
    intro c hc
    refine hdecimal c (List.mem_append_left _ hc) ?_
    rintro rfl
    have := List.count_pos_iff.2 hc
    omega
  have hplaces : ∀ c ∈ places, Text.isDecimal c = true := by
    intro c hc
    refine hdecimal c (List.mem_append_right _ (List.mem_cons_of_mem _ hc)) ?_
    rintro rfl
    have := List.count_pos_iff.2 hc
    omega
  have hany : whole ≠ [] ∨ places ≠ [] := by
    by_contra hnot
    obtain ⟨rfl, rfl⟩ := not_or.1 hnot |>.imp not_not.1 not_not.1
    exact hlone rfl
  have hsome := readReal?_point hwhole hplaces hany
  rw [hnone] at hsome
  cases hsome

/-- A run is read as a number unless it has points in wrong places or a digit without a value. -/
theorem readNumber_fails {run : List Char} (hrun : ∀ c ∈ run, isNumberChar c = true)
    (hne : run ≠ []) (hlength : run.length ≤ maxNumeralDigits) (position : Nat) :
    FailsBy (Misread run) (readNumber position run) := by
  unfold readNumber
  split
  · exact .expression _ _
  rename_i hcount
  split
  · exact .expression _ _
  rename_i hlone
  split
  · rename_i hpoint
    split
    · exact .ok _
    · rename_i hnone
      have hmark := exists_digitMark_of_readReal? hrun (List.contains_iff_mem.1 hpoint) hcount
        hlone hnone
      exact .defect ⟨run, List.infix_refl run, hrun, hmark, .inr rfl⟩
  · rename_i hpoint
    have hnopoint : '.' ∉ run := fun hmem => hpoint (List.contains_iff_mem.2 hmem)
    rcases readInteger_run_cases hrun hne hlength with ⟨n, hn⟩ | ⟨herror, c, hc, hdecimal⟩
    · rw [hn]
      exact .ok _
    · rw [herror]
      have hmark := digitMark_of_not_isDecimal (hrun c hc) (fun h => hnopoint (h ▸ hc)) hdecimal
      exact .defect ⟨run, List.infix_refl run, hrun, ⟨c, hc, hmark⟩, .inl rfl⟩

/-! ## Tokens -/

theorem infix_trim (cs : List Char) : Text.trim cs <:+: cs := by
  have hfront : cs.dropWhile Text.isBlank <:+ cs := List.dropWhile_suffix _
  have hback : Text.trim cs <+: cs.dropWhile Text.isBlank := by
    rw [Text.trim, ← List.reverse_suffix, List.reverse_reverse]
    exact List.dropWhile_suffix _
  exact hback.isInfix.trans hfront.isInfix

theorem readName_fails {p : Defect → Prop} (position : Nat) (inner : List Char) :
    FailsBy p (readName position inner) := by
  unfold readName
  simp only
  split
  · exact .ok _
  · exact .expression _ _

theorem infix_of_readName {position : Nat} {inner : List Char} {name : String}
    (h : readName position inner = .ok name) : name.toList <:+: inner := by
  unfold readName at h
  simp only at h
  split at h
  · cases h
    rw [Text.strip, String.toList_ofList, String.toList_ofList]
    exact infix_trim inner
  · cases h

/-- The characters of a number stand at the start of what is cut. -/
theorem infix_takeWhile (c : Char) (rest : List Char) :
    c :: rest.takeWhile isNumberChar <:+: c :: rest :=
  ((List.prefix_cons_inj c).2 (List.takeWhile_prefix _)).isInfix

theorem infix_dropWhile {p : Char → Bool} (c : Char) (rest : List Char) :
    rest.dropWhile p <:+: c :: rest :=
  ((List.dropWhile_suffix p).trans (List.suffix_cons c rest)).isInfix

theorem tokensFrom_fails (position : Nat) (cs : List Char)
    (hlength : cs.length ≤ maxNumeralDigits) : FailsBy (Misread cs) (tokensFrom position cs) := by
  -- The cases are those of the cut: the end, a blank, a number, a brace that nothing closes, a
  -- placeholder, a sign or a parenthesis, and what is none of these.
  induction position, cs using tokensFrom.induct with
  | case1 position => rw [tokensFrom]; exact .ok _
  | case2 position c rest hblank ih =>
    rw [tokensFrom, if_pos hblank]
    have hrest := ih (by simp only [List.length_cons] at hlength; omega)
    exact hrest.mono fun d hd => hd.mono (List.suffix_cons c rest).isInfix
  | case3 position c rest hblank hnumber run ih =>
    rw [tokensFrom, if_neg hblank, if_pos hnumber]
    have hrun : ∀ d ∈ run, isNumberChar d = true := by
      intro d hd
      rcases List.mem_cons.1 hd with rfl | hd
      · exact hnumber
      · exact List.mem_takeWhile_imp hd
    have hsub : run <:+: c :: rest := infix_takeWhile c rest
    have hshort := hsub.length_le
    have hmore : (rest.dropWhile isNumberChar).length ≤ maxNumeralDigits := by
      have := length_dropWhile_le (p := isNumberChar) rest
      simp only [List.length_cons] at hlength
      omega
    -- The characters of a number are cut together and read, and then the rest is cut.
    have hread := readNumber_fails hrun (List.cons_ne_nil _ _) (by omega) position
    refine (hread.mono fun d hd => hd.mono hsub).bind fun n _ => ?_
    refine ((ih hmore).mono fun d hd => hd.mono (infix_dropWhile c rest)).bind fun more _ => ?_
    exact .ok _
  | case4 position rest inner hclosed hblank hnumber =>
    rw [tokensFrom, if_neg hblank, if_neg hnumber, if_pos rfl, if_pos hclosed]
    exact .expression _ _
  | case5 position rest inner hclosed hblank hnumber ih =>
    rw [tokensFrom, if_neg hblank, if_neg hnumber, if_pos rfl, if_neg hclosed]
    have hsub : (rest.dropWhile (· ≠ '\x7d')).drop 1 <:+: '\x7b' :: rest :=
      (List.drop_suffix 1 _).isInfix.trans (infix_dropWhile _ rest)
    have hmore := hsub.length_le
    refine (readName_fails _ _).bind fun name _ => ?_
    refine ((ih (by omega)).mono fun d hd => hd.mono hsub).bind fun more _ => ?_
    exact .ok _
  | case6 position c rest hblank hnumber hbrace s hs ih =>
    rw [tokensFrom, if_neg hblank, if_neg hnumber, if_neg hbrace, hs]
    have hrest := ih (by simp only [List.length_cons] at hlength; omega)
    refine (hrest.mono fun d hd => hd.mono (List.suffix_cons c rest).isInfix).bind fun more _ => ?_
    exact .ok _
  | case7 position c rest hblank hnumber hbrace hs =>
    rw [tokensFrom, if_neg hblank, if_neg hnumber, if_neg hbrace, hs]
    exact .expression _ _

/-- The placeholders of some tokens have names of some kind. -/
def NamesIn (p : String → Prop) (ts : List Token) : Prop :=
  ∀ t ∈ ts, ∀ name, t.symbol = .placeholder name → p name

theorem NamesIn.mono {p q : String → Prop} {ts : List Token} (h : NamesIn p ts)
    (hpq : ∀ name, p name → q name) : NamesIn q ts :=
  fun t ht name hname => hpq name (h t ht name hname)

theorem NamesIn.tail {p : String → Prop} {t : Token} {ts : List Token} (h : NamesIn p (t :: ts)) :
    NamesIn p ts :=
  fun u hu => h u (List.mem_cons_of_mem t hu)

theorem NamesIn.cons {p : String → Prop} {t : Token} {ts : List Token}
    (ht : ∀ name, t.symbol = .placeholder name → p name) (hts : NamesIn p ts) :
    NamesIn p (t :: ts) := by
  intro u hu
  rcases List.mem_cons.1 hu with rfl | hu
  · exact ht
  · exact hts u hu

theorem exists_of_bind_eq_ok {α β : Type} {r : Except Fault α} {k : α → Except Fault β} {b : β}
    (h : r >>= k = .ok b) : ∃ a, r = .ok a ∧ k a = .ok b := by
  cases r with
  | ok a => exact ⟨a, rfl, h⟩
  | error f => cases h

theorem Symbol.ofChar?_ne_placeholder (c : Char) (name : String) :
    Symbol.ofChar? c ≠ some (.placeholder name) := by
  unfold Symbol.ofChar?
  split <;> simp

/-- The name of a placeholder stands in the text. -/
theorem namesIn_tokensFrom (position : Nat) (cs : List Char) : ∀ {ts : List Token},
    tokensFrom position cs = .ok ts → NamesIn (fun name => name.toList <:+: cs) ts := by
  induction position, cs using tokensFrom.induct with
  | case1 position =>
    intro ts h
    rw [tokensFrom] at h
    cases h
    exact fun t ht => absurd ht List.not_mem_nil
  | case2 position c rest hblank ih =>
    intro ts h
    rw [tokensFrom, if_pos hblank] at h
    exact (ih h).mono fun name hname => hname.trans (List.suffix_cons c rest).isInfix
  | case3 position c rest hblank hnumber run =>
    rename_i ih
    intro ts h
    rw [tokensFrom, if_neg hblank, if_pos hnumber] at h
    obtain ⟨n, -, hn⟩ := exists_of_bind_eq_ok h
    obtain ⟨more, hmore, hts⟩ := exists_of_bind_eq_ok hn
    cases hts
    exact ((ih hmore).mono fun name hname => hname.trans (infix_dropWhile c rest)).cons
      (by intro name hname; cases hname)
  | case4 position rest inner hclosed hblank =>
    rename_i hnumber
    intro ts h
    rw [tokensFrom, if_neg hblank, if_neg hnumber, if_pos rfl, if_pos hclosed] at h
    cases h
  | case5 position rest inner hclosed hblank hnumber =>
    rename_i ih
    intro ts h
    rw [tokensFrom, if_neg hblank, if_neg hnumber, if_pos rfl, if_neg hclosed] at h
    obtain ⟨name, hname, hn⟩ := exists_of_bind_eq_ok h
    obtain ⟨more, hmore, hts⟩ := exists_of_bind_eq_ok hn
    cases hts
    refine NamesIn.cons ?_ ((ih hmore).mono fun other hother => ?_)
    -- The name is read from what stands between the braces.
    · intro other hother
      cases hother
      have hinner : inner <:+: '\x7b' :: rest :=
        ((List.takeWhile_prefix _).isInfix).trans (List.suffix_cons _ rest).isInfix
      exact (infix_of_readName hname).trans hinner
    · exact hother.trans ((List.drop_suffix 1 _).isInfix.trans (infix_dropWhile _ rest))
  | case6 position c rest hblank hnumber hbrace s hs ih =>
    intro ts h
    rw [tokensFrom, if_neg hblank, if_neg hnumber, if_neg hbrace, hs] at h
    obtain ⟨more, hmore, hts⟩ := exists_of_bind_eq_ok h
    cases hts
    refine NamesIn.cons ?_ ((ih hmore).mono fun name hname =>
      hname.trans (List.suffix_cons c rest).isInfix)
    rintro name rfl
    exact absurd hs (Symbol.ofChar?_ne_placeholder c name)
  | case7 position c rest hblank hnumber hbrace hs =>
    intro ts h
    rw [tokensFrom, if_neg hblank, if_neg hnumber, if_neg hbrace, hs] at h
    cases h

/-! ## Trees -/

/-- The placeholders of an expression have names of some kind, and its broken places have faults of
expressions. -/
def Expr.IsOver (p : String → Prop) : Expr → Prop
  | .number _ => True
  | .placeholder name => p name
  | .sign _ e => e.IsOver p
  | .binary _ _ l r => l.IsOver p ∧ r.IsOver p
  | .missing f => ∃ words behind, f = .expression words behind
  | .broken e f => e.IsOver p ∧ ∃ words behind, f = .expression words behind

/-- What has been parsed, complete or not, is such an expression, and the tokens that are left have
such names. -/
def ParsedOver (p : String → Prop) : Parsed → Prop
  | .ok (e, rest) => e.IsOver p ∧ NamesIn p rest
  | .error e => e.IsOver p

section
variable {p : String → Prop} {last fuel : Nat}

theorem ParsedOver.sign {r : Parsed} (h : ParsedOver p r) (negative : Bool) :
    ParsedOver p (signParsed negative r) := by
  match r with
  | .ok (e, rest) => exact h
  | .error e => exact h

theorem ParsedOver.close {r : Parsed} (h : ParsedOver p r) (last : Nat) :
    ParsedOver p (closeParsed last r) := by
  match r with
  | .error e => exact h
  | .ok (e, []) => exact ⟨h.1, _, _, rfl⟩
  | .ok (e, u :: rest) =>
    rw [closeParsed]
    split
    · exact ⟨h.1, h.2.tail⟩
    · exact ⟨h.1, _, _, rfl⟩

theorem parsedOver_more {l : Level}
    (hpart : ∀ ts, NamesIn p ts → ParsedOver p (parseAt last l.part fuel ts))
    (hmore : ∀ e ts, e.IsOver p → NamesIn p ts → ParsedOver p (moreAt last l fuel e ts)) {e : Expr}
    {ts : List Token} (he : e.IsOver p) (hts : NamesIn p ts) :
    ParsedOver p (moreAt last l (fuel + 1) e ts) := by
  cases ts with
  | nil =>
    rw [moreAt_nil]
    exact ⟨he, hts⟩
  | cons t rest =>
    rw [moreAt_cons]
    cases l.operation? t.symbol with
    | none => exact ⟨he, hts⟩
    | some o =>
      -- What stands on the right is parsed first, and then the chain goes on.
      have hright := hpart rest hts.tail
      revert hright
      cases parseAt last l.part fuel rest with
      | error r => exact fun hright => ⟨he, hright⟩
      | ok parsed => exact fun hright => hmore _ _ ⟨he, hright.1⟩ hright.2

theorem parsedOver_factor
    (hsum : ∀ ts, NamesIn p ts → ParsedOver p (parseAt last (.chain .sum) fuel ts))
    (hfactor : ∀ ts, NamesIn p ts → ParsedOver p (parseAt last .factor fuel ts)) {ts : List Token}
    (hts : NamesIn p ts) : ParsedOver p (parseAt last .factor (fuel + 1) ts) := by
  cases ts with
  | nil => exact ⟨_, _, rfl⟩
  | cons t rest =>
    obtain ⟨symbol, position⟩ := t
    cases symbol with
    | number n => exact ⟨trivial, hts.tail⟩
    | placeholder name => exact ⟨hts _ List.mem_cons_self name rfl, hts.tail⟩
    | plus =>
      rw [show Symbol.plus = Level.sum.symbol false from rfl, parseAt_signed]
      exact (hfactor rest hts.tail).sign false
    | minus =>
      rw [show Symbol.minus = Level.sum.symbol true from rfl, parseAt_signed]
      exact (hfactor rest hts.tail).sign true
    | left =>
      rw [parseAt_group]
      exact (hsum rest hts.tail).close last
    | star => exact ⟨_, _, rfl⟩
    | slash => exact ⟨_, _, rfl⟩
    | right => exact ⟨_, _, rfl⟩

/-- The parsing functions keep to the names of the tokens. The induction is on the fuel that they
share. -/
theorem parsedOver_parseAt (p : String → Prop) (last fuel : Nat) :
    (∀ phrase ts, NamesIn p ts → ParsedOver p (parseAt last phrase fuel ts)) ∧
    ∀ l e ts, e.IsOver p → NamesIn p ts → ParsedOver p (moreAt last l fuel e ts) := by
  induction fuel with
  | zero =>
    refine ⟨fun phrase ts _ => ?_, fun l e ts he hts => ?_⟩
    · rw [parseAt_zero]
      exact ⟨_, _, rfl⟩
    · rw [moreAt_zero]
      exact ⟨he, hts⟩
  | succ fuel ih =>
    obtain ⟨hparse, hmore⟩ := ih
    refine ⟨fun phrase ts hts => ?_,
      fun l e ts he hts => parsedOver_more (hparse l.part) (hmore l) he hts⟩
    cases phrase with
    | factor => exact parsedOver_factor (hparse (.chain .sum)) (hparse .factor) hts
    | chain l =>
      have hfirst := hparse l.part ts hts
      rw [parseAt_chain]
      revert hfirst
      cases parseAt last l.part fuel ts with
      | error e => exact fun hfirst => hfirst
      | ok parsed => exact fun hfirst => hmore l _ _ hfirst.1 hfirst.2

theorem isOver_parse (last : Nat) {ts : List Token} (hts : NamesIn p ts) :
    (parse last ts).IsOver p := by
  have hsum := (parsedOver_parseAt p last (3 * ts.length + 3)).1 (.chain .sum) ts hts
  simp only [parseAt] at hsum
  unfold parse
  revert hsum
  cases parseSum last (3 * ts.length + 3) ts with
  | error f => exact fun hsum => hsum
  | ok parsed =>
    obtain ⟨e, rest⟩ := parsed
    cases rest with
    | nil => exact fun hsum => hsum.1
    | cons t rest => exact fun hsum => ⟨hsum.1, _, _, rfl⟩

end

/-! ## Values of trees -/

/-- A defect that a placeholder comes to: that of resolving it, or that its value cannot be shown. -/
def Unresolved (resolve : String → Except Defect Value) (name : String) (d : Defect) : Prop :=
  resolve name = .error d ∨
    d = .longInteger ∧ ∃ v, resolve name = .ok v ∧ v.hasLongInteger = true

theorem resolved_fails {resolve : String → Except Defect Value} {name : String} {v : Value}
    (hv : resolve name = .ok v) : FailsBy (Unresolved resolve name) (resolved name v) := by
  unfold resolved
  split
  · exact .expression _ _
  · split
    · exact .ok _
    · split
      · rename_i hlong
        exact .defect (.inr ⟨rfl, _, hv, hlong⟩)
      · exact .expression _ _

theorem Operation.apply_fails {p : Defect → Prop} (operation : Operation) (position : Nat)
    (m n : Number) : FailsBy p (operation.apply position m n) := by
  unfold Operation.apply
  split
  · exact .expression _ _
  · split
    · exact .ok _
    · exact .expression _ _

/-- An expression fails with a fault of expressions or with a defect of one of its placeholders. -/
theorem Expr.eval_fails {resolve : String → Except Defect Value} {p : String → Prop} {e : Expr}
    (h : e.IsOver p) :
    FailsBy (fun d => ∃ name, p name ∧ Unresolved resolve name d) (e.eval resolve) := by
  have hfault : ∀ {f : Fault}, (∃ words behind, f = .expression words behind) →
      FailsBy (fun d => ∃ name, p name ∧ Unresolved resolve name d)
        (.error f : Except Fault Number) := by
    rintro f ⟨words, behind, rfl⟩
    exact .expression words behind
  induction e with
  | number n => exact .ok _
  -- A placeholder fails when it is resolved, or when its value is no number.
  | placeholder name =>
    simp only [eval]
    split
    · rename_i d hd
      exact .defect ⟨name, h, .inl hd⟩
    · rename_i v hv
      exact (resolved_fails hv).mono fun d hd => ⟨name, h, hd⟩
  | sign negative e ih =>
    have he := ih h
    simp only [eval]
    split
    · rename_i f hf
      rwa [hf] at he
    · exact .ok _
  | binary operation position l r ihl ihr =>
    have hl := ihl h.1
    have hr := ihr h.2
    simp only [eval]
    split
    · rename_i f hf
      rwa [hf] at hl
    · split
      · rename_i f hf
        rwa [hf] at hr
      · exact operation.apply_fails position _ _
  | missing f => exact hfault h
  | broken e f ih =>
    have he := ih h.1
    simp only [eval]
    split
    · rename_i g hg
      rwa [hg] at he
    · exact hfault h.2

/-! ## Lookups -/

theorem infix_intercalate {sep part : List Char} : ∀ {parts : List (List Char)},
    part ∈ parts → part <:+: sep.intercalate parts
  | [only], h => by
    rw [List.mem_singleton.1 h, List.intercalate_singleton]
  | first :: next :: rest, h => by
    rw [List.intercalate_cons_cons]
    rcases List.mem_cons.1 h with rfl | h
    · rw [List.append_assoc]
      exact (List.prefix_append _ _).isInfix
    · exact (infix_intercalate h).trans (List.suffix_append _ _).isInfix

/-- The segments of a path stand in it. -/
theorem infix_of_mem_segments {path segment : String} (h : segment ∈ segments path) :
    segment.toList <:+: path.toList := by
  rw [segments_eq, List.mem_map] at h
  obtain ⟨part, hpart, rfl⟩ := h
  rw [String.toList_ofList]
  have hsub : part <:+: ['.'].intercalate (path.toList.splitOn '.') := infix_intercalate hpart
  rwa [List.intercalate_splitOn] at hsub

/-- A step breaks down at a segment of digits of which one has no decimal value. -/
theorem misread_of_step {v : Value} {segment : String} {d : Defect}
    (hlength : segment.toList.length ≤ maxNumeralDigits) (h : v.step segment = .error d) :
    Misread segment.toList d := by
  cases v with
  | list items =>
    simp only [Value.step] at h
    split at h
    · rename_i hdigits
      rw [Bool.and_eq_true, List.all_eq_true] at hdigits
      obtain ⟨hne, hdigits⟩ := hdigits
      have hrun : ∀ c ∈ segment.toList, isNumberChar c = true := by
        exact fun c hc => isNumberChar_of_isDigit (hdigits c hc)
      have hne' : segment.toList ≠ [] := by
        intro hnil
        rw [String.toList_eq_nil_iff] at hnil
        exact of_decide_eq_true hne hnil
      -- Digits that are read do not fail, since an index out of range leads nowhere.
      rcases readInteger_run_cases hrun hne' hlength with ⟨n, hn⟩ | ⟨herror, c, hc, hmark⟩
      · rw [String.ofList_toList] at hn
        rw [hn] at h
        cases h
      · rw [String.ofList_toList] at herror
        rw [herror] at h
        cases h
        exact ⟨segment.toList, List.infix_refl _, hrun, ⟨c, hc, hdigits c hc, hmark⟩,
          .inl (by rw [String.ofList_toList])⟩
    · cases h
  | _ => cases h

theorem misread_of_follow {cs : List Char} (hlength : cs.length ≤ maxNumeralDigits) {d : Defect} :
    ∀ (segments : List String) (v : Value), (∀ segment ∈ segments, segment.toList <:+: cs) →
      v.follow segments = .error d → Misread cs d := by
  intro segments
  induction segments with
  | nil =>
    intro v _ h
    cases h
  | cons segment rest ih =>
    intro v hsub h
    have hsegment := hsub segment List.mem_cons_self
    have hrest := fun s hs => hsub s (List.mem_cons_of_mem segment hs)
    unfold Value.follow at h
    split at h
    · rename_i d' hstep
      cases h
      exact (misread_of_step (hsegment.length_le.trans hlength) hstep).mono hsegment
    · cases h
    · exact ih _ hrest h

theorem misread_of_lookup {v : Value} {path : String} {d : Defect}
    (hlength : path.toList.length ≤ maxNumeralDigits) (h : v.lookup path = .error d) :
    Misread path.toList d := by
  unfold Value.lookup at h
  split at h
  · cases h
  · exact misread_of_follow hlength _ v (fun segment hs => infix_of_mem_segments hs) h

/-! ## Texts -/

/-- A finite number that is integral becomes an integer, and one that is not finite is a fault. -/
theorem finish_cases (n : Number) :
    (∃ k, finish n = .ok (.int k)) ∨
      (∃ x : Binary64, finish n = .ok (.real x) ∧ x.isFinite = true ∧ x.isInteger = false) ∨
      ∃ words behind, finish n = .error (.expression words behind) := by
  cases n with
  | int k => exact .inl ⟨k, rfl⟩
  | real x =>
    simp only [finish]
    split
    · exact .inr (.inr ⟨_, _, rfl⟩)
    · rename_i hfinite
      split
      · rename_i hinteger
        cases x with
        | nan => cases hinteger
        | infinite negative => cases hinteger
        | finite negative units h => exact .inl ⟨_, rfl⟩
      · rename_i hinteger
        exact .inr (.inl ⟨x, rfl, by simpa using hfinite, Bool.eq_false_iff.2 hinteger⟩)

/-- A text that is not refused at once has the value of the tree that it spells. -/
theorem evaluate_eq {text : String} (hstrip : Text.strip text ≠ "")
    (hlength : text.length ≤ maxLength) (resolve : String → Except Defect Value) :
    evaluate text resolve = (do
      let tokens ← tokenize text
      let result ← (parse text.length tokens).eval resolve
      finish result) := by
  rw [evaluate, if_neg hstrip, if_neg (Nat.not_lt.2 hlength)]

/-- A text fails with a fault of expressions, with a defect of a numeral in it, or because a
placeholder in it cannot be resolved. -/
theorem evaluate_failsBy (text : String) (resolve : String → Except Defect Value) :
    FailsBy (fun d => text.length ≤ maxLength ∧ (Misread text.toList d ∨
      ∃ name, name.toList <:+: text.toList ∧ Unresolved resolve name d)) (evaluate text resolve) := by
  by_cases hstrip : Text.strip text = ""
  · rw [evaluate, if_pos hstrip]
    exact .expression _ _
  · by_cases hlong : text.length > maxLength
    · rw [evaluate, if_neg hstrip, if_pos hlong]
      exact .expression _ _
    · have hshort := Nat.not_lt.1 hlong
      have hdigits : text.toList.length ≤ maxNumeralDigits := by
        rw [String.length_toList]
        exact hshort.trans (by decide)
      rw [evaluate_eq hstrip hshort]
      -- The text is cut, then parsed, then evaluated; the names in the tree stand in the text.
      refine ((tokensFrom_fails 0 text.toList hdigits).mono fun d hd => ⟨hshort, .inl hd⟩).bind
        fun ts hts => ?_
      have hover := isOver_parse text.length (namesIn_tokensFrom 0 text.toList hts)
      refine ((Expr.eval_fails hover).mono fun d hd => ⟨hshort, .inr hd⟩).bind fun n _ => ?_
      rcases finish_cases n with ⟨k, hk⟩ | ⟨x, hx, -⟩ | ⟨words, behind, hfault⟩
      · rw [hk]
        exact .ok _
      · rw [hx]
        exact .ok _
      · rw [hfault]
        exact .expression _ _

/-- What comes out of a text is an integer, or a finite number that is not integral. -/
theorem evaluate_ok_cases {text : String} {resolve : String → Except Defect Value} {n : Number}
    (h : evaluate text resolve = .ok n) :
    (∃ k, n = .int k) ∨ ∃ x : Binary64, n = .real x ∧ x.isFinite = true ∧ x.isInteger = false := by
  have hfinish : ∃ m, finish m = .ok n := by
    by_cases hstrip : Text.strip text = ""
    · rw [evaluate, if_pos hstrip] at h
      cases h
    · by_cases hlong : text.length > maxLength
      · rw [evaluate, if_neg hstrip, if_pos hlong] at h
        cases h
      · rw [evaluate_eq hstrip (Nat.not_lt.1 hlong)] at h
        obtain ⟨ts, -, h⟩ := exists_of_bind_eq_ok h
        obtain ⟨m, -, h⟩ := exists_of_bind_eq_ok h
        exact ⟨m, h⟩
  obtain ⟨m, hm⟩ := hfinish
  rcases finish_cases m with ⟨k, hk⟩ | ⟨x, hx, hreal⟩ | ⟨words, behind, hfault⟩
  · rw [hk] at hm
    cases hm
    exact .inl ⟨k, rfl⟩
  · rw [hx] at hm
    cases hm
    exact .inr ⟨x, rfl, hreal⟩
  · rw [hfault] at hm
    cases hm

/-- **An expression comes to an integer or to a finite number that is not integral, or fails with a
fault of expressions**, unless a run of digits in the text cannot be read because one of them has no
decimal value, or a placeholder in the text stands for a value that holds an integer of too many
digits. -/
theorem evaluate_answers (text : String) (context : Value) :
    (∃ k, evaluate text context.lookup = .ok (.int k)) ∨
      (∃ x : Binary64, evaluate text context.lookup = .ok (.real x) ∧ x.isFinite = true ∧
        x.isInteger = false) ∨
      (∃ words behind, evaluate text context.lookup = .error (.expression words behind)) ∨
      ∃ d, evaluate text context.lookup = .error (.defect d) ∧
        ((∃ run, run <:+: text.toList ∧ (∀ c ∈ run, isNumberChar c = true) ∧
            (∃ c ∈ run, Text.isDigit c = true ∧ Text.isDecimal c = false) ∧
            (d = .numeral (String.ofList run) ∨ d = .realNumeral (String.ofList run))) ∨
          d = .longInteger ∧ ∃ name v, name.toList <:+: text.toList ∧
            context.lookup name = .ok v ∧ v.hasLongInteger = true) := by
  cases h : evaluate text context.lookup with
  | ok n =>
    rcases evaluate_ok_cases h with ⟨k, rfl⟩ | ⟨x, rfl, hfinite, hinteger⟩
    · exact .inl ⟨k, rfl⟩
    · exact .inr (.inl ⟨x, rfl, hfinite, hinteger⟩)
  | error f =>
    refine .inr (.inr ?_)
    rcases evaluate_failsBy text context.lookup f h with ⟨words, behind, rfl⟩ | ⟨d, rfl, hshort, hd⟩
    · exact .inl ⟨words, behind, rfl⟩
    · refine .inr ⟨d, rfl, ?_⟩
      rcases hd with hmisread | ⟨name, hname, hlookup | ⟨rfl, v, hv, hlong⟩⟩
      · exact .inl hmisread
      -- The name is a part of the text, which is short, so its segments have few digits.
      · have hlength : name.toList.length ≤ maxNumeralDigits := by
          refine hname.length_le.trans ?_
          rw [String.length_toList]
          exact hshort.trans (by decide)
        exact .inl ((misread_of_lookup hlength hlookup).mono hname)
      · exact .inr ⟨rfl, name, v, hname, hv, hlong⟩

/-- The digits are not read as an integer: one of them has no decimal value. -/
theorem readNumber_marked {run : List Char} (hdigits : ∀ c ∈ run, Text.isDigit c = true)
    (hmark : ∃ c ∈ run, Text.isDecimal c = false) (position : Nat) :
    readNumber position run = .error (.defect (.numeral (String.ofList run))) := by
  have hrun : ∀ c ∈ run, isNumberChar c = true := fun c hc => isNumberChar_of_isDigit (hdigits c hc)
  have hpoint : '.' ∉ run := fun h => absurd (hdigits '.' h) (by decide)
  have hcount : ¬ 2 ≤ run.count '.' := by
    rw [List.count_eq_zero.2 hpoint]
    omega
  have hlone : run ≠ ['.'] := by
    rintro rfl
    exact hpoint List.mem_cons_self
  rw [readNumber, if_neg hcount, if_neg hlone, if_neg (by simpa using hpoint),
    readInteger_run_marked hrun hmark]

/-- Digits of which one has no decimal value are no expression, and no fault of one either. -/
theorem evaluate_marked {run : List Char} (hdigits : ∀ c ∈ run, Text.isDigit c = true)
    (hmark : ∃ c ∈ run, Text.isDecimal c = false) (hlength : run.length ≤ maxLength)
    (resolve : String → Except Defect Value) :
    evaluate (String.ofList run) resolve = .error (.defect (.numeral (String.ofList run))) := by
  have hrun : ∀ c ∈ run, isNumberChar c = true := fun c hc => isNumberChar_of_isDigit (hdigits c hc)
  have hnotblank : ∀ c ∈ run, Text.isBlank c = false := by
    intro c hc
    rw [Bool.eq_false_iff]
    intro h
    have := hdigits c hc
    rw [Text.isDigit_of_isBlank h] at this
    cases this
  have hread := readNumber_marked hdigits hmark
  obtain ⟨c, rest, rfl⟩ : ∃ c rest, run = c :: rest := by
    obtain ⟨c, hc, -⟩ := hmark
    exact List.exists_cons_of_ne_nil (List.ne_nil_of_mem hc)
  have hstrip : Text.strip (String.ofList (c :: rest)) ≠ "" := by
    intro hempty
    rw [Text.strip, String.toList_ofList] at hempty
    have hblank := Text.isBlank_of_trim_eq_nil (String.ofList_eq_empty_iff.1 hempty) c
      List.mem_cons_self
    rw [hnotblank c List.mem_cons_self] at hblank
    cases hblank
  -- The whole text is cut as one number.
  have hwhole : rest.takeWhile isNumberChar = rest :=
    List.takeWhile_eq_self_iff.2 fun d hd => hrun d (List.mem_cons_of_mem c hd)
  have htokens : tokenize (String.ofList (c :: rest)) =
      .error (.defect (.numeral (String.ofList (c :: rest)))) := by
    rw [tokenize, String.toList_ofList, tokensFrom, hnotblank c List.mem_cons_self,
      if_neg Bool.false_ne_true, if_pos (hrun c List.mem_cons_self)]
    simp only [hwhole, hread]
    rfl
  rw [evaluate_eq hstrip (by rwa [String.length_ofList]), htokens]
  rfl

/-- A superscript two is a digit, and it is none of the answers to which an expression may come. -/
theorem superscript_is_no_answer :
    ¬ ((∃ k, evaluate "²" (Value.object []).lookup = .ok (.int k)) ∨
      (∃ x : Binary64, evaluate "²" (Value.object []).lookup = .ok (.real x) ∧
        x.isFinite = true ∧ x.isInteger = false) ∨
      ∃ words behind, evaluate "²" (Value.object []).lookup = .error (.expression words behind)) := by
  have hfails : evaluate "²" (Value.object []).lookup = .error (.defect (.numeral "²")) :=
    evaluate_marked (List.all_eq_true.1 (by decide)) ⟨'²', List.mem_cons_self, by decide⟩
      (by decide) _
  rw [hfails]
  simp

end Workgraph.Arithmetic
