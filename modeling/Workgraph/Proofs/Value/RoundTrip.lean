import Mathlib.Tactic
import Workgraph.Proofs.Value.Distinct
import Workgraph.Proofs.Value.Numeral
import Workgraph.Proofs.Value.StringText
import Workgraph.Value.Document
/-!
# Reading back documents

A value reads back from its document, number by number and character by character, if no object in
it has a name twice (`Json.read_write`); the reader that refuses long integers reads it too if it holds
none (`Json.decode_write`). So what a database reads from a column is what was written there
(`Json.documentFields_document`).
-/

namespace Workgraph

namespace Json

/-! ## Characters of a document -/

/-- The characters of a written string. -/
def stringChars (s : String) : List Char := '"' :: (s.toList.flatMap (escapeChar true) ++ ['"'])

mutual

/-- The characters of a value on one line, with a blank after each separator. -/
def chars : Value → List Char
  | .null => ['n', 'u', 'l', 'l']
  | .bool true => ['t', 'r', 'u', 'e']
  | .bool false => ['f', 'a', 'l', 's', 'e']
  | .int n => (intText n).toList
  | .real x => (numberLayout.render x).toList
  | .text s => stringChars s
  | .list [] => ['[', ']']
  | .list (v :: rest) => '[' :: (chars v ++ itemChars rest)
  | .object [] => ['\x7b', '\x7d']
  | .object ((k, v) :: rest) => '\x7b' :: (stringChars k ++ ':' :: ' ' :: (chars v ++ fieldChars rest))

/-- The characters behind the first item of a list. -/
def itemChars : List Value → List Char
  | [] => [']']
  | v :: rest => ',' :: ' ' :: (chars v ++ itemChars rest)

/-- The characters behind the first field of an object. -/
def fieldChars : List (String × Value) → List Char
  | [] => ['\x7d']
  | (k, v) :: rest => ',' :: ' ' :: (stringChars k ++ ':' :: ' ' :: (chars v ++ fieldChars rest))

end

theorem stringText_toList (s : String) : (stringText true s).toList = stringChars s := by
  simp [stringText, stringChars]

mutual

theorem writeAt_toList (level : Nat) : ∀ v, (writeAt spaced level v).toList = chars v
  | .null => by simp [writeAt, chars]
  | .bool true => by simp [writeAt, chars]
  | .bool false => by simp [writeAt, chars]
  | .int _ => rfl
  | .real _ => rfl
  | .text s => stringText_toList s
  | .list [] => by simp [writeAt, chars, Style.enclose, writeItems]
  | .list (v :: rest) => by
    have hv := writeAt_toList (level + 1) v
    have hrest := writeItems_toList (level + 1) rest (writeAt spaced (level + 1) v)
    rw [hv] at hrest
    simpa [writeAt, chars, Style.enclose, spaced, writeItems] using hrest
  | .object [] => by simp [writeAt, chars, Style.enclose, writeFields]
  | .object ((k, v) :: rest) => by
    have hv := writeAt_toList (level + 1) v
    have hrest := writeFields_toList (level + 1) rest
      (stringText true k ++ ": " ++ writeAt spaced (level + 1) v)
    simp only [String.toList_append, hv, stringText_toList] at hrest
    simpa [writeAt, chars, Style.enclose, spaced, writeFields] using hrest

/-- The items behind an item, up to the end of the list. -/
theorem writeItems_toList (level : Nat) : ∀ (items : List Value) (first : String),
    (", ".intercalate (first :: writeItems spaced level items)).toList ++ [']'] =
      first.toList ++ itemChars items
  | [], first => by simp [writeItems, itemChars]
  | v :: rest, first => by
    have hv := writeAt_toList level v
    have hrest := writeItems_toList level rest (writeAt spaced level v)
    simp only [writeItems, String.intercalate_cons_cons, String.toList_append, List.append_assoc,
      hrest, hv]
    simp [itemChars]

/-- The fields behind a field, up to the end of the object. -/
theorem writeFields_toList (level : Nat) : ∀ (fields : List (String × Value)) (first : String),
    (", ".intercalate (first :: writeFields spaced level fields)).toList ++ ['\x7d'] =
      first.toList ++ fieldChars fields
  | [], first => by simp [writeFields, fieldChars]
  | (k, v) :: rest, first => by
    have hv := writeAt_toList level v
    have hrest := writeFields_toList level rest
      (stringText spaced.ascii k ++ spaced.fieldSeparator ++ writeAt spaced level v)
    simp only [writeFields, String.intercalate_cons_cons, String.toList_append, List.append_assoc,
      hrest, hv]
    simp [fieldChars, spaced, stringText_toList]

end

theorem chars_nan : chars (.real .nan) = ['N', 'a', 'N'] := by
  simp [chars, Layout.render, numberLayout]

theorem chars_infinity :
    chars (.real (.infinite false)) = ['I', 'n', 'f', 'i', 'n', 'i', 't', 'y'] := by
  simp [chars, Layout.render, numberLayout]

theorem chars_minusInfinity :
    chars (.real (.infinite true)) = ['-', 'I', 'n', 'f', 'i', 'n', 'i', 't', 'y'] := by
  simp [chars, Layout.render, numberLayout]

/-! ## First characters -/

/-- Characters with which a value begins: of ASCII, no blanks, and no end of a list. -/
abbrev Begins (c : Char) : Prop :=
  c ≠ ' ' ∧ c ≠ '\t' ∧ c ≠ '\n' ∧ c ≠ '\r' ∧ c ≠ ']' ∧ c.toNat < 128

/-- Digits and the minus sign. -/
abbrev BeginsNumber (c : Char) : Prop := c = '-' ∨ c.isDigit = true

theorem BeginsNumber.begins {c : Char} (h : BeginsNumber c) : Begins c := by
  rcases h with rfl | hdigit
  · decide
  · have hascii : c.toNat < 128 := by
      simp only [Char.isDigit, Bool.and_eq_true, decide_eq_true_eq] at hdigit
      have hle : c.val.toNat ≤ 57 := hdigit.2
      exact Nat.lt_of_le_of_lt hle (by norm_num)
    refine ⟨?_, ?_, ?_, ?_, ?_, hascii⟩ <;> rintro rfl <;> exact absurd hdigit (by decide)

theorem IsNumber.head {cs : List Char} {v : Value} (h : IsNumber cs v) :
    ∃ c rest, cs = c :: rest ∧ BeginsNumber c := by
  obtain ⟨negative, n, rfl⟩ := h.numeral
  cases negative with
  | true => exact ⟨'-', n.text, rfl, .inl rfl⟩
  | false =>
    obtain ⟨c, ds, hwhole⟩ := List.exists_cons_of_ne_nil n.isWhole.ne_nil
    refine ⟨c, ds ++ (placesText n.places ++ powerText n.power), ?_, .inr ?_⟩
    · simp [signText, Numeral.text, hwhole]
    · exact n.isWhole.allDigits c (hwhole ▸ List.mem_cons_self)

theorem head_chars (v : Value) : ∃ c rest, chars v = c :: rest ∧ Begins c := by
  have hnumber : ∀ {cs v}, IsNumber cs v → ∃ c rest, cs = c :: rest ∧ Begins c := by
    intro cs v h
    obtain ⟨c, rest, hcs, hc⟩ := h.head
    exact ⟨c, rest, hcs, hc.begins⟩
  match v with
  | .null => exact ⟨_, _, rfl, by decide⟩
  | .bool true => exact ⟨_, _, rfl, by decide⟩
  | .bool false => exact ⟨_, _, rfl, by decide⟩
  | .int n => exact hnumber (isNumber_int n)
  | .real (.finite s u h) => exact hnumber (isNumber_finite s h)
  | .real .nan => exact ⟨_, _, chars_nan, by decide⟩
  | .real (.infinite true) => exact ⟨_, _, chars_minusInfinity, by decide⟩
  | .real (.infinite false) => exact ⟨_, _, chars_infinity, by decide⟩
  | .text s => exact ⟨_, _, rfl, by decide⟩
  | .list [] => exact ⟨_, _, rfl, by decide⟩
  | .list (v :: rest) => exact ⟨_, _, rfl, by decide⟩
  | .object [] => exact ⟨_, _, rfl, by decide⟩
  | .object (e :: rest) => exact ⟨_, _, rfl, by decide⟩

theorem skip_of_begins {c : Char} (h : Begins c) (rest : List Char) : skip (c :: rest) = c :: rest := by
  obtain ⟨hblank, htab, hline, hreturn, -, -⟩ := h
  simp [skip, hblank, htab, hline, hreturn]

theorem skip_blank (cs : List Char) : skip (' ' :: cs) = skip cs := rfl

theorem skip_chars (v : Value) (rest : List Char) : skip (chars v ++ rest) = chars v ++ rest := by
  obtain ⟨c, cs, hchars, hc⟩ := head_chars v
  rw [hchars]
  exact skip_of_begins hc _

/-! ## Reading -/

theorem escapeChar_ne_nil (ascii : Bool) (c : Char) : escapeChar ascii c ≠ [] := by
  unfold escapeChar
  repeat' split
  all_goals exact List.cons_ne_nil _ _

theorem length_le_flatMap_escapeChar (cs : List Char) :
    cs.length ≤ (cs.flatMap (escapeChar true)).length := by
  induction cs with
  | nil => exact Nat.le_refl _
  | cons c cs ih =>
    have hpos := List.length_pos_of_ne_nil (escapeChar_ne_nil true c)
    rw [List.flatMap_cons, List.length_append, List.length_cons]
    omega

theorem readString_stringChars (start : Nat) (s : String) (rest : List Char) :
    readString start ((s.toList.flatMap (escapeChar true) ++ '"' :: rest).length + 1) []
      (s.toList.flatMap (escapeChar true) ++ '"' :: rest) = .ok (s, rest) := by
  have hlength := length_le_flatMap_escapeChar s.toList
  rw [readString_flatMap true start rest s.toList (by rw [List.length_append]; omega)]
  simp

/-- Whether a reader takes the integers of a value. -/
abbrev Takes (limited : Bool) (v : Value) : Prop := limited = true → v.hasLongInteger = false

variable {limited : Bool}

/-- What reading does behind an item of a list. -/
def moreItems (limited : Bool) (fuel : Nat) (acc : List Value) (cs : List Char) :
    Except Misread (Value × List Char) :=
  match skip cs with
  | ']' :: rest => return (.list acc.reverse, rest)
  | ',' :: rest => readItems limited fuel acc (skip rest)
  | rest => throw ⟨.comma, rest.length⟩

theorem readItems_of_ok {fuel : Nat} {acc : List Value} {cs rest : List Char} {v : Value}
    (h : readValue limited fuel cs = .ok (v, rest)) :
    readItems limited (fuel + 1) acc cs = moreItems limited fuel (v :: acc) rest := by
  rw [readItems, h]
  rfl

/-- What reading does behind a field of an object. -/
def moreFields (limited : Bool) (fuel : Nat) (acc : Entries Value) (cs : List Char) :
    Except Misread (Value × List Char) :=
  match skip cs with
  | '\x7d' :: rest => return (.object acc, rest)
  | ',' :: rest => readFields limited fuel acc (skip rest)
  | rest => throw ⟨.comma, rest.length⟩

theorem readFields_of_ok {fuel : Nat} {acc : Entries Value} {k : String} {cs rest : List Char}
    {v : Value} (h : readValue limited fuel (skip cs) = .ok (v, rest)) :
    readFields limited (fuel + 1) acc (stringChars k ++ ':' :: ' ' :: cs) =
      moreFields limited fuel (acc.set k v) rest := by
  have hkey := fun start => readString_stringChars start k (':' :: ' ' :: cs)
  have htext : stringChars k ++ ':' :: ' ' :: cs =
      '"' :: (k.toList.flatMap (escapeChar true) ++ '"' :: ':' :: ' ' :: cs) := by
    simp [stringChars]
  have hskip : skip (':' :: ' ' :: cs) = ':' :: ' ' :: cs := rfl
  rw [htext, readFields, hkey]
  simp only [bind, Except.bind, hskip, skip_blank, h]
  rfl

theorem dropWord?_eq_none {word : String} {cs : List Char}
    (h : word.toList.isPrefixOf cs = false) : dropWord? word cs = none := by
  rw [dropWord?, h]
  rfl

theorem readConstant?_eq_none {cs : List Char}
    (h : ∀ word ∈ ["null", "true", "false", "NaN", "Infinity", "-Infinity"],
      word.toList.isPrefixOf cs = false) : readConstant? cs = none := by
  rw [readConstant?, List.findSome?_eq_none_iff]
  rintro ⟨word, v⟩ hconstant
  have hword : word ∈ ["null", "true", "false", "NaN", "Infinity", "-Infinity"] :=
    List.mem_map_of_mem (f := Prod.fst) hconstant
  simp only [dropWord?_eq_none (h word hword), Option.map_none]

/-- No constant begins like a number. -/
theorem readConstant?_number {cs : List Char} {v : Value} (h : IsNumber cs v) (rest : List Char) :
    readConstant? (cs ++ rest) = none := by
  obtain ⟨negative, n, rfl⟩ := h.numeral
  obtain ⟨c, ds, hwhole⟩ := List.exists_cons_of_ne_nil n.isWhole.ne_nil
  have hdigit : c.isDigit = true := n.isWhole.allDigits c (hwhole ▸ List.mem_cons_self)
  -- A constant begins with a letter, or with a minus sign and a letter.
  have hne : ∀ d : Char, d.isDigit = false → (d == c) = false := by
    intro d hd
    rw [beq_eq_false_iff_ne]
    rintro rfl
    exact absurd hdigit (by rw [hd]; exact Bool.false_ne_true)
  have htext : n.text = c :: (ds ++ (placesText n.places ++ powerText n.power)) := by
    rw [Numeral.text, hwhole, List.cons_append]
  rw [htext]
  apply readConstant?_eq_none
  simp only [List.forall_mem_cons]
  cases negative with
  | true => simp [signText, List.isPrefixOf, hne 'I' rfl]
  | false =>
    simp [signText, List.isPrefixOf, hne 'n' rfl, hne 't' rfl, hne 'f' rfl, hne 'N' rfl,
      hne 'I' rfl, hne '-' rfl]

/-- A reader that takes a number reads it. -/
theorem readNumber_of_reads {cs rest : List Char} {v : Value} (htakes : Takes limited v)
    (h : readNumber? cs = some (v, rest)) : readNumber limited cs = .ok (v, rest) := by
  rw [readNumber, h]
  split
  · rename_i n rest' heq
    cases heq
    have hshort : (limited && isLongInteger n) = false := by
      cases limited with
      | false => rfl
      | true => exact htakes rfl
    rw [hshort]
    rfl
  · rename_i heq
    cases heq
    rfl
  · rename_i heq
    cases heq

/-- A number is read as a value. -/
theorem readValue_number {cs : List Char} {v : Value} (h : IsNumber cs v) (htakes : Takes limited v)
    (fuel : Nat) {rest : List Char} (hrest : Stops rest) :
    readValue limited (fuel + 1) (cs ++ rest) = .ok (v, rest) := by
  have hconstant := readConstant?_number h rest
  have hnumber := readNumber_of_reads htakes (h.reads hrest)
  obtain ⟨c, more, rfl, hc⟩ := h.head
  -- Neither a quote nor a bracket begins a number.
  have hne : ∀ d : Char, d ≠ '-' → d.isDigit = false → c ≠ d := by
    rintro d hminus hdigit rfl
    rcases hc with rfl | hc
    · exact hminus rfl
    · exact absurd hc (by rw [hdigit]; exact Bool.false_ne_true)
  rw [List.cons_append] at hconstant hnumber ⊢
  rw [readValue.eq_def]
  simp only [hconstant, hnumber]
  split
  · rename_i heq
    exact absurd (List.cons.inj heq).1 (hne '"' (by decide) rfl)
  · rename_i heq
    exact absurd (List.cons.inj heq).1 (hne '\x7b' (by decide) rfl)
  · rename_i heq
    exact absurd (List.cons.inj heq).1 (hne '[' (by decide) rfl)
  · rfl

theorem stops_itemChars (items : List Value) (rest : List Char) : Stops (itemChars items ++ rest) := by
  intro c hc
  cases items with
  | nil =>
    cases hc
    decide
  | cons v items =>
    cases hc
    decide

theorem stops_fieldChars (fields : List (String × Value)) (rest : List Char) :
    Stops (fieldChars fields ++ rest) := by
  intro c hc
  cases fields with
  | nil =>
    cases hc
    decide
  | cons e fields =>
    cases hc
    decide

/-- The rest of a list of items reads on with its first item. -/
theorem moreItems_cons (fuel : Nat) (acc : List Value) (v : Value) (cs : List Char) :
    moreItems limited fuel acc (',' :: ' ' :: (chars v ++ cs)) =
      readItems limited fuel acc (chars v ++ cs) := by
  have hskip : skip (',' :: ' ' :: (chars v ++ cs)) = ',' :: ' ' :: (chars v ++ cs) := rfl
  rw [moreItems, hskip]
  simp only [skip_blank, skip_chars]

theorem moreFields_cons (fuel : Nat) (acc : Entries Value) (k : String) (cs : List Char) :
    moreFields limited fuel acc (',' :: ' ' :: (stringChars k ++ cs)) =
      readFields limited fuel acc (stringChars k ++ cs) := rfl

theorem readValue_text (fuel : Nat) (s : String) (rest : List Char) :
    readValue limited (fuel + 1) (stringChars s ++ rest) = .ok (.text s, rest) := by
  have htext : stringChars s ++ rest =
      '"' :: (s.toList.flatMap (escapeChar true) ++ '"' :: rest) := by
    simp [stringChars]
  rw [htext, readValue, readString_stringChars]
  rfl

theorem readValue_list (fuel : Nat) (v : Value) (cs : List Char) :
    readValue limited (fuel + 1) ('[' :: (chars v ++ cs)) =
      readItems limited fuel [] (chars v ++ cs) := by
  obtain ⟨c, more, hchars, -, -, -, -, hend, -⟩ := head_chars v
  rw [readValue, skip_chars, hchars, List.cons_append]
  split
  · rename_i heq
    exact absurd (List.cons.inj heq).1 hend
  · rfl

theorem readValue_object (fuel : Nat) (k : String) (cs : List Char) :
    readValue limited (fuel + 1) ('\x7b' :: (stringChars k ++ cs)) =
      readFields limited fuel [] (stringChars k ++ cs) := rfl

theorem length_chars_pos (v : Value) : 0 < (chars v).length := by
  obtain ⟨c, cs, hchars, -⟩ := head_chars v
  rw [hchars]
  exact Nat.succ_pos _

theorem length_itemChars_pos (items : List Value) : 0 < (itemChars items).length := by
  cases items <;> exact Nat.succ_pos _

mutual

/-- A value is read from its characters by a reader that takes its integers, and the rest is left. -/
theorem readValue_chars : ∀ (v : Value), v.isDistinct = true → Takes limited v →
    ∀ (fuel : Nat) {rest : List Char}, (chars v).length ≤ fuel → Stops rest →
      readValue limited fuel (chars v ++ rest) = .ok (v, rest)
  | v, _, _, 0, rest, hfuel, _ => absurd (length_chars_pos v) (Nat.not_lt.2 hfuel)
  | .null, _, _, fuel + 1, rest, _, _ => rfl
  | .bool true, _, _, fuel + 1, rest, _, _ => rfl
  | .bool false, _, _, fuel + 1, rest, _, _ => rfl
  | .int n, _, htakes, fuel + 1, rest, _, hrest =>
    readValue_number (isNumber_int n) htakes fuel hrest
  | .real (.finite s u h), _, htakes, fuel + 1, rest, _, hrest =>
    readValue_number (isNumber_finite s h) htakes fuel hrest
  | .real .nan, _, _, fuel + 1, rest, _, _ => by
    rw [chars_nan]
    rfl
  | .real (.infinite true), _, _, fuel + 1, rest, _, _ => by
    rw [chars_minusInfinity]
    rfl
  | .real (.infinite false), _, _, fuel + 1, rest, _, _ => by
    rw [chars_infinity]
    rfl
  | .text s, _, _, fuel + 1, rest, _, _ => readValue_text fuel s rest
  | .list [], _, _, fuel + 1, rest, _, _ => rfl
  | .list (v :: items), hv, htakes, fuel + 1, rest, hfuel, _ => by
    obtain ⟨hfirst, hitems⟩ := (Bool.and_eq_true_iff).1 hv
    have hshort (hl : limited = true) := Bool.or_eq_false_iff.1 (htakes hl)
    have hpos := length_chars_pos v
    have hend := length_itemChars_pos items
    simp only [chars, List.length_cons, List.length_append] at hfuel
    -- Each item takes one from the fuel, and has at least one character.
    obtain ⟨f, rfl⟩ : ∃ f, fuel = f + 1 := ⟨fuel - 1, by omega⟩
    have hread := readValue_chars v hfirst (fun hl => (hshort hl).1) f (by omega)
      (stops_itemChars items rest)
    rw [chars, List.cons_append, List.append_assoc, readValue_list, readItems_of_ok hread,
      moreItems_chars items hitems (fun hl => (hshort hl).2) (by omega)]
    rfl
  | .object [], _, _, fuel + 1, rest, _, _ => rfl
  | .object ((k, v) :: fields), hv, htakes, fuel + 1, rest, hfuel, _ => by
    obtain ⟨hnames, hwithin⟩ := (Bool.and_eq_true_iff).1 hv
    have hshort (hl : limited = true) := Bool.or_eq_false_iff.1 (htakes hl)
    obtain ⟨hfirst, hfields⟩ := (Bool.and_eq_true_iff).1 hwithin
    have hpos := length_chars_pos v
    simp only [chars, List.length_cons, List.length_append] at hfuel
    obtain ⟨f, rfl⟩ : ∃ f, fuel = f + 1 := ⟨fuel - 1, by omega⟩
    have hread := readValue_chars v hfirst (fun hl => (hshort hl).1) f (by omega)
      (stops_fieldChars fields rest)
    -- The value stands behind a blank, which is skipped before it is read.
    rw [← skip_chars] at hread
    rw [chars, List.cons_append, List.append_assoc, readValue_object]
    simp only [List.cons_append, List.append_assoc]
    rw [readFields_of_ok hread, moreFields_chars fields hfields (fun hl => (hshort hl).2)
      (of_decide_eq_true hnames) (by omega)]
    rfl

/-- Items are read from the characters behind an item. -/
theorem moreItems_chars : ∀ (items : List Value), Value.areDistinct items = true →
    (limited = true → Value.anyLongInteger items = false) →
    ∀ {fuel : Nat} {acc : List Value} {rest : List Char}, (itemChars items).length ≤ fuel →
      moreItems limited fuel acc (itemChars items ++ rest) = .ok (.list (acc.reverse ++ items), rest)
  | [], _, _, fuel, acc, rest, _ => by
    rw [List.append_nil]
    rfl
  | v :: items, hitems, htakes, fuel, acc, rest, hfuel => by
    obtain ⟨hfirst, hmore⟩ := (Bool.and_eq_true_iff).1 hitems
    have hshort (hl : limited = true) := Bool.or_eq_false_iff.1 (htakes hl)
    have hpos := length_chars_pos v
    simp only [itemChars, List.length_cons, List.length_append] at hfuel
    obtain ⟨f, rfl⟩ : ∃ f, fuel = f + 1 := ⟨fuel - 1, by omega⟩
    have hread := readValue_chars v hfirst (fun hl => (hshort hl).1) f (by omega)
      (stops_itemChars items rest)
    rw [itemChars, List.cons_append, List.cons_append, List.append_assoc, moreItems_cons,
      readItems_of_ok hread, moreItems_chars items hmore (fun hl => (hshort hl).2) (by omega)]
    simp

/-- Fields are read from the characters behind a field. -/
theorem moreFields_chars : ∀ (fields : List (String × Value)), Value.haveDistinct fields = true →
    (limited = true → Value.anyLongField fields = false) →
    ∀ {fuel : Nat} {acc : Entries Value} {rest : List Char},
      ((acc ++ fields).map Prod.fst).Nodup → (fieldChars fields).length ≤ fuel →
        moreFields limited fuel acc (fieldChars fields ++ rest) = .ok (.object (acc ++ fields), rest)
  | [], _, _, fuel, acc, rest, _, _ => by
    rw [List.append_nil]
    rfl
  | (k, v) :: fields, hfields, htakes, fuel, acc, rest, hnames, hfuel => by
    obtain ⟨hfirst, hmore⟩ := (Bool.and_eq_true_iff).1 hfields
    have hshort (hl : limited = true) := Bool.or_eq_false_iff.1 (htakes hl)
    have hpos := length_chars_pos v
    simp only [fieldChars, List.length_cons, List.length_append] at hfuel
    obtain ⟨f, rfl⟩ : ∃ f, fuel = f + 1 := ⟨fuel - 1, by omega⟩
    have hread := readValue_chars v hfirst (fun hl => (hshort hl).1) f (by omega)
      (stops_fieldChars fields rest)
    rw [← skip_chars] at hread
    have hnew : k ∉ acc.map Prod.fst := by
      intro hk
      rw [List.map_append, List.nodup_append] at hnames
      exact hnames.2.2 k hk k List.mem_cons_self rfl
    -- A name that is new comes last, so that the fields keep their order.
    have hset : acc.set k v = acc ++ [(k, v)] := Entries.set_of_not_mem hnew v
    rw [fieldChars, List.cons_append, List.cons_append, List.append_assoc, moreFields_cons]
    simp only [List.cons_append, List.append_assoc]
    rw [readFields_of_ok hread, hset, moreFields_chars fields hmore (fun hl => (hshort hl).2)
      (by simpa using hnames) (by omega)]
    simp

end

/-! ## Documents -/

theorem write_toList (v : Value) : (write spaced v).toList = chars v := writeAt_toList 0 v

/-- No value begins with the mark of a byte order. -/
theorem head?_chars_ne_mark (v : Value) : (chars v).head? ≠ some (Char.ofNat 0xFEFF) := by
  obtain ⟨c, cs, hchars, -, -, -, -, -, hascii⟩ := head_chars v
  rw [hchars, List.head?_cons, ne_eq, Option.some.injEq]
  rintro rfl
  exact absurd hascii (by decide)

/-- A value reads back from what is written of it, by any reader that takes its integers. -/
theorem readText_write {v : Value} (h : v.isDistinct = true) (htakes : Takes limited v) :
    readText limited (write spaced v) = .ok v := by
  have hstops : Stops [] := fun c hc => absurd hc (Option.not_mem_none c)
  have hread := readValue_chars v h htakes (2 * (chars v).length + 2) (by omega) hstops
  have hskip := skip_chars v []
  rw [List.append_nil] at hread hskip
  unfold readText
  simp only [write_toList, hskip, hread]
  rw [if_neg (head?_chars_ne_mark v)]
  rfl

/-- **A value reads back from what is written of it.** -/
theorem read_write {v : Value} (h : v.isDistinct = true) : read (write spaced v) = .ok v :=
  readText_write h fun hlimited => absurd hlimited Bool.false_ne_true

/-- A value without long integers reads back although their lengths are limited. -/
theorem decode_write {v : Value} (h : v.isDistinct = true) (hshort : v.hasLongInteger = false) :
    decode (write spaced v) = .ok v :=
  readText_write h fun _ => hshort

/-- What is read from the document of an object is its fields. -/
theorem documentFields_document {fields : Entries Value} {s : String}
    (h : (Value.object fields).isDistinct = true) (hs : document (.object fields) = .ok s) :
    documentFields s = fields := by
  unfold document at hs
  split at hs
  · cases hs
  · rename_i hshort
    cases hs
    rw [documentFields, decode_write h (Bool.eq_false_iff.2 hshort)]

end Json

end Workgraph
