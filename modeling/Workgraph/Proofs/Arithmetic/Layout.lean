import Mathlib.Data.List.Chain
import Workgraph.Arithmetic.Token
import Workgraph.Proofs.Text.Classes
import Workgraph.Proofs.Text.Split
/-!
# Symbols laid out as text

How the symbols of an expression over integers are written: a number by decimal digits of any script,
a placeholder by its name in braces, and a sign or parenthesis by its character. Blanks may stand
between symbols, at both ends, and around the name of a placeholder. Numbers must not meet; otherwise
the text is cut into the same symbols again (`LaidOut.tokensFrom_eq`).
-/

namespace Workgraph.Arithmetic

/-! ## Numbers -/

/-- The natural that decimal digits spell. -/
def digitsNat (ds : List Char) : Nat :=
  ds.foldl (fun n c => 10 * n + (Text.decimalValue? c).getD 0) 0

/-- The ASCII digits and their values. -/
theorem isDigit_ofNat : ∀ d < 10, (Char.ofNat (48 + d)).isDigit = true ∧
    (Char.ofNat (48 + d)).toNat - 48 = d := by
  decide

theorem dropUnderscores_eq : ∀ {cs : List Char}, (∀ c ∈ cs, c ≠ '_') → dropUnderscores cs = some cs
  | [], _ => rfl
  | a :: rest, h => by
    have ha : a ≠ '_' := h a List.mem_cons_self
    have hrest := dropUnderscores_eq fun c hc => h c (List.mem_cons_of_mem a hc)
    rw [dropUnderscores, if_neg ha, hrest]
    · rfl
    · rintro b more rfl
      exact h '_' (List.mem_cons_of_mem a List.mem_cons_self) rfl

theorem readSign_digits {cs : List Char} (h : ∀ c ∈ cs, c.isDigit = true) :
    readSign cs = (false, cs) := by
  unfold readSign
  split
  · exact absurd (h '-' List.mem_cons_self) (by decide)
  · exact absurd (h '+' List.mem_cons_self) (by decide)
  · rfl

section
variable {ds : List Char} (hds : ∀ c ∈ ds, Text.isDecimal c = true)
include hds

theorem trimNumber_digits : trimNumber ds = ds :=
  Text.trimNumber_of_not_isBlank fun c hc => Text.isBlank_of_isDecimal (hds c hc)

theorem isDigit_plainDigits : ∀ c ∈ plainDigits ds, c.isDigit = true := by
  intro c hc
  obtain ⟨b, hb, rfl⟩ := List.mem_map.1 hc
  obtain ⟨d, hd⟩ := Text.isDecimal_iff.1 (hds b hb)
  rw [hd]
  exact (isDigit_ofNat d (Text.decimalValue?_eq_some hd).2).1

theorem decimalNat_plainDigits : decimalNat (plainDigits ds) = digitsNat ds := by
  unfold decimalNat plainDigits digitsNat
  rw [List.foldl_map]
  refine List.foldl_ext _ _ 0 fun n c hc => ?_
  obtain ⟨d, hd⟩ := Text.isDecimal_iff.1 (hds c hc)
  rw [hd, (isDigit_ofNat d (Text.decimalValue?_eq_some hd).2).2]
  rfl

/-- Decimal digits spell an integer, unless there are too many. -/
theorem readInteger_digits (hne : ds ≠ []) (hlength : ds.length ≤ maxNumeralDigits) :
    readInteger (String.ofList ds) = .ok (digitsNat ds) := by
  have hdigits := isDigit_plainDigits hds
  have hunderscore : ∀ c ∈ plainDigits ds, c ≠ '_' := by
    rintro c hc rfl
    exact absurd (hdigits '_' hc) (by decide)
  have hlength' : (plainDigits ds).length = ds.length := List.length_map _
  have hne' : (plainDigits ds).isEmpty = false := by
    rw [List.isEmpty_eq_false_iff]
    exact mt List.map_eq_nil_iff.1 hne
  rw [readInteger, String.toList_ofList, trimNumber_digits hds, dropUnderscores_eq hunderscore]
  simp only [readSign_digits hdigits, hne', List.all_eq_true.2 hdigits, hlength',
    decimalNat_plainDigits hds, Nat.not_lt.2 hlength]
  rfl

theorem readNumber_digits (hne : ds ≠ []) (hlength : ds.length ≤ maxNumeralDigits)
    (position : Nat) : readNumber position ds = .ok (.int (digitsNat ds)) := by
  have hpoint : '.' ∉ ds := by
    intro hmem
    exact absurd (hds '.' hmem) (by decide)
  have hcount : ds.count '.' = 0 := List.count_eq_zero.2 hpoint
  have hlone : ds ≠ ['.'] := by
    rintro rfl
    exact hpoint List.mem_cons_self
  rw [readNumber, hcount, if_neg (by decide), if_neg hlone, if_neg (by simpa using hpoint),
    readInteger_digits hds hne hlength]

end

/-! ## Names -/

/-- A dotted name: parts of letters, digits and underscores, none of them of underscores alone. -/
def DottedName (name : String) : Prop :=
  ∃ parts : List (List Char), parts ≠ [] ∧ name.toList = ['.'].intercalate parts ∧
    ∀ part ∈ parts, (∀ c ∈ part, c = '_' ∨ Text.isAlphanumeric c = true) ∧ ∃ c ∈ part, c ≠ '_'

/-- What stands in texts with a separator between them. -/
theorem mem_intercalate {sep : List Char} {c : Char} : ∀ {parts : List (List Char)},
    c ∈ sep.intercalate parts → c ∈ sep ∨ ∃ part ∈ parts, c ∈ part
  | [], h => absurd h List.not_mem_nil
  | [part], h => by
    rw [List.intercalate_singleton] at h
    exact .inr ⟨part, List.mem_singleton_self part, h⟩
  | part :: next :: parts, h => by
    rw [List.intercalate_cons_cons, List.mem_append, List.mem_append] at h
    rcases h with (hpart | hsep) | hmore
    · exact .inr ⟨part, List.mem_cons_self, hpart⟩
    · exact .inl hsep
    · rcases mem_intercalate hmore with hsep | ⟨other, hother, hc⟩
      · exact .inl hsep
      · exact .inr ⟨other, List.mem_cons_of_mem part hother, hc⟩

namespace DottedName

variable {name : String}

/-- The characters of a dotted name. -/
theorem mem (h : DottedName name) {c : Char} (hc : c ∈ name.toList) :
    c = '.' ∨ c = '_' ∨ Text.isAlphanumeric c = true := by
  obtain ⟨parts, -, hname, hparts⟩ := h
  rw [hname] at hc
  rcases mem_intercalate hc with hsep | ⟨part, hpart, hc⟩
  · exact .inl (List.mem_singleton.1 hsep)
  · exact .inr ((hparts part hpart).1 c hc)

theorem isBlank_eq_false (h : DottedName name) {c : Char} (hc : c ∈ name.toList) :
    Text.isBlank c = false := by
  rcases h.mem hc with rfl | rfl | hletter
  · decide
  · decide
  · exact Text.isBlank_of_isAlphanumeric hletter

theorem ne_brace (h : DottedName name) {c : Char} (hc : c ∈ name.toList) : c ≠ '\x7d' := by
  rcases h.mem hc with rfl | rfl | hletter
  · decide
  · decide
  · rintro rfl
    exact absurd hletter (by decide +kernel)

theorem toList_ne_nil (h : DottedName name) : name.toList ≠ [] := by
  obtain ⟨parts, hne, hname, hparts⟩ := h
  obtain ⟨part, parts, rfl⟩ := List.exists_cons_of_ne_nil hne
  obtain ⟨c, hc, -⟩ := (hparts part List.mem_cons_self).2
  rw [hname]
  cases parts with
  | nil =>
    rw [List.intercalate_singleton]
    exact List.ne_nil_of_mem hc
  | cons next parts =>
    rw [List.intercalate_cons_cons, List.append_assoc]
    exact List.ne_nil_of_mem (List.mem_append_left _ hc)

/-- Dotted names are accepted. -/
theorem isDottedName (h : DottedName name) : isDottedName name = true := by
  have hsome : name ≠ "" := by
    rintro rfl
    exact h.toList_ne_nil rfl
  obtain ⟨parts, hne, hname, hparts⟩ := h
  have hpoint : ∀ part ∈ parts, '.' ∉ part := by
    intro part hpart hmem
    rcases (hparts part hpart).1 '.' hmem with heq | hletter
    · exact absurd heq (by decide)
    · exact absurd hletter (by decide +kernel)
  have hsplit : name.splitOn "." = parts.map String.ofList := by
    rw [show "." = String.ofList ['.'] from rfl, Text.splitOn_singleton, hname,
      List.splitOn_intercalate '.' hpoint hne]
  rw [Arithmetic.isDottedName, hsplit]
  simp only [ne_eq, hsome, not_false_eq_true, decide_true, Bool.true_and, List.all_eq_true]
  intro part hpart
  obtain ⟨chars, hchars, rfl⟩ := List.mem_map.1 hpart
  obtain ⟨hall, c, hc, hbare⟩ := hparts chars hchars
  have hfilter : (chars.filter (· ≠ '_')) ≠ [] :=
    List.ne_nil_of_mem (List.mem_filter.2 ⟨hc, decide_eq_true hbare⟩)
  rw [String.toList_ofList, Bool.and_eq_true]
  refine ⟨?_, List.all_eq_true.2 fun d hd => ?_⟩
  · rw [Bool.not_eq_true', List.isEmpty_eq_false_iff]
    exact hfilter
  · obtain ⟨hd, hne⟩ := List.mem_filter.1 hd
    exact (hall d hd).resolve_left (of_decide_eq_true hne)

/-- A dotted name is read from between blanks. -/
theorem readName_between (h : DottedName name) {before after : List Char}
    (hbefore : ∀ c ∈ before, Text.isBlank c = true) (hafter : ∀ c ∈ after, Text.isBlank c = true)
    (position : Nat) : readName position (before ++ (name.toList ++ after)) = .ok name := by
  have hstrip : Text.strip (String.ofList (before ++ (name.toList ++ after))) = name := by
    rw [Text.strip, String.toList_ofList, Text.trim_between hbefore hafter h.toList_ne_nil
      (fun c hc => h.isBlank_eq_false (List.mem_of_mem_head? hc))
      (fun c hc => h.isBlank_eq_false (List.mem_of_mem_getLast? hc)), String.ofList_toList]
  rw [readName, hstrip, if_pos h.isDottedName]

end DottedName

/-! ## Symbols -/

/-- How a symbol is written. -/
inductive Symbol.WrittenAs : Symbol → List Char → Prop
  | number (ds : List Char) (ne_nil : ds ≠ []) (decimal : ∀ c ∈ ds, Text.isDecimal c = true) :
      WrittenAs (.number (.int (digitsNat ds))) ds
  | placeholder (name : String) (dotted : DottedName name) (before after : List Char)
      (before_blank : ∀ c ∈ before, Text.isBlank c = true)
      (after_blank : ∀ c ∈ after, Text.isBlank c = true) :
      WrittenAs (.placeholder name) ('\x7b' :: (before ++ (name.toList ++ after) ++ ['\x7d']))
  | mark (c : Char) (s : Symbol) (ofChar : Symbol.ofChar? c = some s) : WrittenAs s [c]

/-- A text has some symbols, with blanks before, between and after them. -/
inductive LaidOut : List Symbol → List Char → Prop
  | done (blanks : List Char) (blank : ∀ c ∈ blanks, Text.isBlank c = true) : LaidOut [] blanks
  | next (blanks : List Char) (blank : ∀ c ∈ blanks, Text.isBlank c = true) {s : Symbol}
      {word : List Char} (written : s.WrittenAs word) {ss : List Symbol} {rest : List Char}
      (more : LaidOut ss rest) : LaidOut (s :: ss) (blanks ++ (word ++ rest))

/-- Whether a symbol is a number. -/
def Symbol.isNumber : Symbol → Bool
  | .number _ => true
  | _ => false

/-- No number comes right after another. -/
def NumbersApart (ss : List Symbol) : Prop :=
  ss.IsChain fun s t => s.isNumber = true → t.isNumber = false

/-- A symbol that is no number may come before anything. -/
theorem NumbersApart.cons {s : Symbol} (hs : s.isNumber = false) {ss : List Symbol}
    (h : NumbersApart ss) : NumbersApart (s :: ss) := by
  apply List.isChain_cons.2
  constructor
  · intro t _ hs'
    rw [hs] at hs'
    cases hs'
  · exact h

/-- Characters that do not go on with a number. -/
def NoNumberFirst (cs : List Char) : Prop := ∀ c ∈ cs.head?, isNumberChar c = false

theorem isNumberChar_of_isBlank {c : Char} (h : Text.isBlank c = true) : isNumberChar c = false := by
  rw [isNumberChar, Text.isDigit_of_isBlank h, Bool.false_or, decide_eq_false_iff_not]
  rintro rfl
  exact absurd h (by decide)

/-- The characters of signs and parentheses. -/
theorem Symbol.ofChar?_eq_some {c : Char} {s : Symbol} (h : Symbol.ofChar? c = some s) :
    c ∈ ['+', '-', '*', '/', '(', ')'] := by
  unfold Symbol.ofChar? at h
  split at h <;> first | decide | cases h

/-- A character that starts no number, no name and no white space. -/
theorem Symbol.ofChar?_class {c : Char} {s : Symbol} (h : Symbol.ofChar? c = some s) :
    Text.isBlank c = false ∧ isNumberChar c = false ∧ c ≠ '\x7b' := by
  have hmarks : ['+', '-', '*', '/', '(', ')'].all
      (fun d => !Text.isBlank d && (!isNumberChar d && decide (d ≠ '\x7b'))) = true := by decide
  have hc := List.all_eq_true.1 hmarks c (Symbol.ofChar?_eq_some h)
  rw [Bool.and_eq_true, Bool.and_eq_true, Bool.not_eq_true', Bool.not_eq_true',
    decide_eq_true_iff] at hc
  exact hc

theorem Symbol.WrittenAs.noNumberFirst {s : Symbol} {word : List Char} (h : s.WrittenAs word)
    (hs : s.isNumber = false) (rest : List Char) : NoNumberFirst (word ++ rest) := by
  cases h with
  | number ds ne_nil decimal => cases hs
  | placeholder name dotted before after before_blank after_blank =>
    rintro c ⟨⟩
    decide
  | mark c s ofChar =>
    rintro d ⟨⟩
    exact (Symbol.ofChar?_class ofChar).2.1

theorem LaidOut.noNumberFirst {ss : List Symbol} {cs : List Char} (h : LaidOut ss cs)
    (hss : ∀ s ∈ ss.head?, s.isNumber = false) : NoNumberFirst cs := by
  cases h with
  | done blanks blank =>
    exact fun c hc => isNumberChar_of_isBlank (blank c (List.mem_of_mem_head? hc))
  | next blanks blank written more =>
    cases blanks with
    | nil => exact written.noNumberFirst (hss _ rfl) _
    | cons b blanks =>
      rintro c ⟨⟩
      exact isNumberChar_of_isBlank (blank b List.mem_cons_self)

/-! ## Cutting -/

theorem tokensFrom_blanks {blanks : List Char} (h : ∀ c ∈ blanks, Text.isBlank c = true)
    (position : Nat) (cs : List Char) :
    tokensFrom position (blanks ++ cs) = tokensFrom (position + blanks.length) cs := by
  induction blanks generalizing position with
  | nil => rfl
  | cons b blanks ih =>
    have hb : Text.isBlank b = true := h b List.mem_cons_self
    rw [List.cons_append, tokensFrom, if_pos hb, ih fun c hc => h c (List.mem_cons_of_mem b hc),
      List.length_cons, Nat.add_assoc, Nat.add_comm 1]

/-- Characters of a number are cut from what does not go on with it. -/
theorem cut_number {ds rest : List Char} (hds : ∀ c ∈ ds, isNumberChar c = true)
    (hrest : NoNumberFirst rest) :
    (ds ++ rest).takeWhile isNumberChar = ds ∧ (ds ++ rest).dropWhile isNumberChar = rest := by
  rw [List.takeWhile_append_of_pos hds, List.dropWhile_append_of_pos hds]
  cases rest with
  | nil => exact ⟨List.append_nil ds, rfl⟩
  | cons c rest =>
    have hc : isNumberChar c = false := hrest c rfl
    rw [List.takeWhile_cons, List.dropWhile_cons, hc]
    exact ⟨List.append_nil ds, rfl⟩

theorem tokensFrom_number {ds rest : List Char} (hne : ds ≠ [])
    (hds : ∀ c ∈ ds, Text.isDecimal c = true) (hlength : ds.length ≤ maxNumeralDigits)
    (hrest : NoNumberFirst rest) (position : Nat) :
    tokensFrom position (ds ++ rest) =
      (tokensFrom (position + ds.length) rest).map
        (⟨.number (.int (digitsNat ds)), position⟩ :: ·) := by
  have hread := readNumber_digits hds hne hlength position
  have hnumber : ∀ c ∈ ds, isNumberChar c = true := by
    intro c hc
    rw [isNumberChar, Text.isDigit, hds c hc]
    rfl
  obtain ⟨d, ds, rfl⟩ := List.exists_cons_of_ne_nil hne
  obtain ⟨htake, hdrop⟩ := cut_number (fun c hc => hnumber c (List.mem_cons_of_mem d hc)) hrest
  have hd : ¬ Text.isBlank d = true :=
    Bool.eq_false_iff.1 (Text.isBlank_of_isDecimal (hds d List.mem_cons_self))
  rw [List.cons_append, tokensFrom, if_neg hd, if_pos (hnumber d List.mem_cons_self)]
  simp only [htake, hdrop, hread]
  cases tokensFrom (position + (d :: ds).length) rest <;> rfl

theorem tokensFrom_placeholder {name : String} (hname : DottedName name) {before after : List Char}
    (hbefore : ∀ c ∈ before, Text.isBlank c = true) (hafter : ∀ c ∈ after, Text.isBlank c = true)
    (rest : List Char) (position : Nat) :
    tokensFrom position ('\x7b' :: (before ++ (name.toList ++ after) ++ ['\x7d']) ++ rest) =
      (tokensFrom (position + (before ++ (name.toList ++ after)).length + 2) rest).map
        (⟨.placeholder name, position⟩ :: ·) := by
  have hread := hname.readName_between hbefore hafter position
  -- The name ends at the first closing brace, as neither it nor a blank is one.
  have hinner : ∀ c ∈ before ++ (name.toList ++ after), decide (c ≠ '\x7d') = true := by
    have hblank : ∀ c, Text.isBlank c = true → c ≠ '\x7d' := by
      rintro c hc rfl
      exact absurd hc (by decide)
    intro c hc
    refine decide_eq_true ?_
    rcases List.mem_append.1 hc with hc | hc
    · exact hblank c (hbefore c hc)
    · rcases List.mem_append.1 hc with hc | hc
      · exact hname.ne_brace hc
      · exact hblank c (hafter c hc)
  generalize before ++ (name.toList ++ after) = inner at hread hinner ⊢
  have htake : (inner ++ '\x7d' :: rest).takeWhile (· ≠ '\x7d') = inner := by
    rw [List.takeWhile_append_of_pos hinner]
    exact List.append_nil inner
  have hdrop : (inner ++ '\x7d' :: rest).dropWhile (· ≠ '\x7d') = '\x7d' :: rest := by
    rw [List.dropWhile_append_of_pos hinner]
    rfl
  have hmore : inner.length ≠ (inner ++ '\x7d' :: rest).length := by
    rw [List.length_append, List.length_cons]
    omega
  rw [List.cons_append, List.append_assoc, List.singleton_append, tokensFrom,
    if_neg (by decide), if_neg (by decide), if_pos rfl]
  simp only [htake, hdrop, if_neg hmore, hread, List.drop_succ_cons, List.drop_zero]
  cases tokensFrom (position + inner.length + 2) rest <;> rfl

theorem tokensFrom_mark {c : Char} {s : Symbol} (h : Symbol.ofChar? c = some s) (rest : List Char)
    (position : Nat) :
    tokensFrom position (c :: rest) =
      (tokensFrom (position + 1) rest).map (⟨s, position⟩ :: ·) := by
  obtain ⟨hblank, hnumber, hbrace⟩ := Symbol.ofChar?_class h
  rw [tokensFrom, hblank, hnumber, if_neg Bool.false_ne_true, if_neg Bool.false_ne_true,
    if_neg hbrace, h]
  cases tokensFrom (position + 1) rest <;> rfl

/-- A symbol is cut from what follows it. -/
theorem Symbol.WrittenAs.tokensFrom_append {s : Symbol} {word rest : List Char}
    (h : s.WrittenAs word) (hlength : word.length ≤ maxNumeralDigits)
    (hrest : s.isNumber = true → NoNumberFirst rest) (position : Nat) :
    tokensFrom position (word ++ rest) =
      (tokensFrom (position + word.length) rest).map (⟨s, position⟩ :: ·) := by
  cases h with
  | number ds ne_nil decimal => exact tokensFrom_number ne_nil decimal hlength (hrest rfl) position
  | placeholder name dotted before after before_blank after_blank =>
    have hlength' : ('\x7b' :: (before ++ (name.toList ++ after) ++ ['\x7d'])).length =
        (before ++ (name.toList ++ after)).length + 2 := by
      simp only [List.length_cons, List.length_append, List.length_nil]
    rw [tokensFrom_placeholder dotted before_blank after_blank rest position, hlength', Nat.add_assoc]
  | mark c s ofChar => exact tokensFrom_mark ofChar rest position

/-- **A text is cut into the symbols that are laid out in it.** -/
theorem LaidOut.tokensFrom_eq {ss : List Symbol} {cs : List Char} (h : LaidOut ss cs)
    (hapart : NumbersApart ss) (hlength : cs.length ≤ maxNumeralDigits) (position : Nat) :
    ∃ ts, tokensFrom position cs = .ok ts ∧ ts.map Token.symbol = ss := by
  induction h generalizing position with
  | done blanks blank =>
    refine ⟨[], ?_, rfl⟩
    rw [← List.append_nil blanks, tokensFrom_blanks blank, tokensFrom]
  | next blanks blank written more ih =>
    rename_i s word ss rest
    obtain ⟨hnext, happart'⟩ := List.isChain_cons.1 hapart
    rw [List.length_append, List.length_append] at hlength
    have hrest (hs : s.isNumber = true) : NoNumberFirst rest :=
      more.noNumberFirst fun t ht => hnext t ht hs
    obtain ⟨ts, hts, hsymbols⟩ := ih happart' (by omega) (position + blanks.length + word.length)
    refine ⟨⟨s, position + blanks.length⟩ :: ts, ?_, by rw [List.map_cons, hsymbols]⟩
    rw [tokensFrom_blanks blank, written.tokensFrom_append (by omega) hrest, hts]
    rfl

end Workgraph.Arithmetic
