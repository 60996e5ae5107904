import Mathlib.Tactic
import Workgraph.Proofs.Number.DigitText
import Workgraph.Proofs.Number.Rounding
/-!
# Reading back numbers

A written number has an integer part, and it may have places and a power. Reading takes just these
parts from a text (`Json.readNumber?_text`), so integers and binary64 numbers read back as they were
(`Json.isNumber_int`, `Json.isNumber_finite`).
-/

namespace Workgraph

namespace Json

/-! ## Parts of a number -/

/-- Digits of an integer part: there are some, and zero is only the first if it is the only one. -/
structure IsWhole (ds : List Char) : Prop where
  ne_nil : ds ≠ []
  allDigits : AllDigits ds
  zero : ds.head? = some '0' → ds = ['0']

/-- The parts of a written number: its integer part, its places, and the sign and the digits of its
power. -/
structure Numeral where
  whole : List Char
  places : List Char
  power : Option (Bool × List Char)
  isWhole : IsWhole whole
  allDigits_places : AllDigits places
  isPower : ∀ p ∈ power, p.2 ≠ [] ∧ AllDigits p.2

/-- A minus sign, or nothing. -/
def signText (negative : Bool) : List Char := if negative then ['-'] else []

/-- Places with their point. -/
def placesText (places : List Char) : List Char := if places.isEmpty then [] else '.' :: places

/-- A power of ten. -/
def powerText : Option (Bool × List Char) → List Char
  | none => []
  | some (minus, ds) => 'e' :: (if minus then '-' else '+') :: ds

namespace Numeral

/-- The written number. -/
def text (n : Numeral) : List Char := n.whole ++ (placesText n.places ++ powerText n.power)

/-- The power, if there is one. -/
def power? (n : Numeral) : Option Int :=
  n.power.map fun p => if p.1 then -(digitsValue p.2 : Int) else digitsValue p.2

/-- The decimal that is written. -/
def decimal (n : Numeral) : Digits :=
  ⟨digitsValue (n.whole ++ n.places), n.power?.getD 0 - n.places.length⟩

/-- Whether only an integer part is written. -/
def isInteger (n : Numeral) : Bool := n.places.isEmpty && n.power.isNone

end Numeral

/-- What may stand behind a number in a document. -/
def Stops (rest : List Char) : Prop := ∀ c ∈ rest.head?, c = ',' ∨ c = ']' ∨ c = '\x7d'

/-! ## Reading the parts -/

theorem readMinus_append {ds rest : List Char} (negative : Bool) (hds : IsWhole ds) :
    readMinus (signText negative ++ (ds ++ rest)) = (negative, ds ++ rest) := by
  cases negative with
  | true => rfl
  | false =>
    cases ds with
    | nil => exact absurd rfl hds.ne_nil
    | cons c ds =>
      have hc : c ≠ '-' := by
        rintro rfl
        exact absurd (hds.allDigits '-' List.mem_cons_self) (by decide)
      simp [signText, readMinus, hc]

theorem readWhole_append {ds rest : List Char} (hds : IsWhole ds) (hrest : NoDigitFirst rest) :
    readWhole (ds ++ rest) = (ds, rest) := by
  cases ds with
  | nil => exact absurd rfl hds.ne_nil
  | cons c ds =>
    by_cases hc : c = '0'
    · subst hc
      rw [hds.zero rfl]
      rfl
    · have hspan : readWhole (c :: ds ++ rest) = spanDigits (c :: ds ++ rest) := by
        simp [readWhole, hc]
      rw [hspan, spanDigits_append hds.allDigits hrest]

theorem readPlaces_append {places rest : List Char} (hplaces : AllDigits places)
    (hrest : NoDigitFirst rest) (hpoint : rest.head? ≠ some '.') :
    readPlaces (placesText places ++ rest) = (places, rest) := by
  cases places with
  | nil =>
    cases rest with
    | nil => rfl
    | cons c rest =>
      have hc : c ≠ '.' := fun h => hpoint (congrArg some h)
      simp [placesText, readPlaces, hc]
  | cons c places =>
    have hspan := spanDigits_append hplaces hrest
    simp only [placesText, List.isEmpty_cons, Bool.false_eq_true, if_false, List.cons_append,
      readPlaces] at hspan ⊢
    rw [hspan]
    rfl

theorem Stops.noDigitFirst {rest : List Char} (h : Stops rest) : NoDigitFirst rest := by
  intro c hc
  rcases h c hc with rfl | rfl | rfl <;> rfl

theorem readExponent_stops {rest : List Char} (hrest : Stops rest) :
    readExponent rest = (none, rest) := by
  cases rest with
  | nil => rfl
  | cons c rest => rcases hrest c rfl with rfl | rfl | rfl <;> rfl

theorem readExponent_append {power : Option (Bool × List Char)} {rest : List Char}
    (hpower : ∀ p ∈ power, p.2 ≠ [] ∧ AllDigits p.2) (hrest : Stops rest) :
    readExponent (powerText power ++ rest) =
      (power.map fun p => if p.1 then -(digitsValue p.2 : Int) else digitsValue p.2, rest) := by
  rcases power with _ | ⟨minus, ds⟩
  · exact readExponent_stops hrest
  · obtain ⟨hne, hds⟩ := hpower (minus, ds) rfl
    have hspan := spanDigits_append hds hrest.noDigitFirst
    have hsign : readSign ((if minus then '-' else '+') :: (ds ++ rest)) = (minus, ds ++ rest) := by
      cases minus <;> rfl
    simp [powerText, readExponent, hsign, hspan, hne]

namespace Numeral

theorem head?_powerText (n : Numeral) {rest : List Char} (hrest : Stops rest) :
    NoDigitFirst (powerText n.power ++ rest) ∧ (powerText n.power ++ rest).head? ≠ some '.' := by
  rcases n.power with _ | ⟨minus, ds⟩
  · refine ⟨hrest.noDigitFirst, fun hpoint => ?_⟩
    rcases hrest '.' hpoint with h | h | h <;> exact absurd h (by decide)
  · refine ⟨fun c hc => ?_, fun hpoint => ?_⟩
    · cases hc
      rfl
    · cases hpoint

theorem noDigitFirst_places (n : Numeral) {rest : List Char} (hrest : Stops rest) :
    NoDigitFirst (placesText n.places ++ (powerText n.power ++ rest)) := by
  cases n.places with
  | nil => exact (n.head?_powerText hrest).1
  | cons c places =>
    intro c hc
    cases hc
    rfl

end Numeral

/-- **A written number reads back by its parts.** -/
theorem readNumber?_text (n : Numeral) (negative : Bool) {rest : List Char} (hrest : Stops rest) :
    readNumber? (signText negative ++ n.text ++ rest) =
      some (if n.isInteger then
          .int (if negative then -(digitsValue n.whole : Int) else digitsValue n.whole)
        else .real (.ofDecimal negative n.decimal.digits n.decimal.exponent), rest) := by
  obtain ⟨hdigit, hpoint⟩ := n.head?_powerText hrest
  have hplaces := readPlaces_append n.allDigits_places hdigit hpoint
  have hwhole := readWhole_append n.isWhole (n.noDigitFirst_places hrest)
  have hminus : readMinus (signText negative ++
      (n.whole ++ (placesText n.places ++ (powerText n.power ++ rest)))) = _ :=
    readMinus_append negative n.isWhole
  have hne := n.isWhole.ne_nil
  have hinteger : (n.places.isEmpty && n.power.isNone) = n.isInteger := rfl
  simp only [Numeral.text, List.append_assoc, readNumber?, hminus, hwhole, hplaces,
    readExponent_append n.isPower hrest, List.isEmpty_eq_false_iff.2 hne, Bool.false_eq_true,
    if_false, Option.isNone_map, hinteger]
  cases n.isInteger <;> rfl

/-- A text is a number that reads back as a value. -/
structure IsNumber (cs : List Char) (v : Value) : Prop where
  numeral : ∃ (negative : Bool) (n : Numeral), cs = signText negative ++ n.text
  reads : ∀ {rest}, Stops rest → readNumber? (cs ++ rest) = some (v, rest)

/-! ## Integers -/

theorem isWhole_toDigits (n : Nat) : IsWhole (Nat.toDigits 10 n) where
  ne_nil := Nat.toDigits_ne_nil
  allDigits := allDigits_toDigits n
  zero hzero := by
    by_cases hn : n = 0
    · rw [hn]
      rfl
    · exact absurd hzero (head?_toDigits hn)

/-- The numeral of a natural. -/
def Numeral.ofNat (n : Nat) : Numeral where
  whole := Nat.toDigits 10 n
  places := []
  power := none
  isWhole := isWhole_toDigits n
  allDigits_places := fun _ hc => absurd hc List.not_mem_nil
  isPower := fun _ hp => absurd hp (Option.not_mem_none _)

theorem intText_toList (n : Int) :
    (intText n).toList = signText (n < 0) ++ (Numeral.ofNat n.natAbs).text := by
  by_cases hn : n < 0 <;> simp [intText, digitsText, signText, Numeral.text, Numeral.ofNat,
    placesText, powerText, hn]

/-- **An integer reads back.** -/
theorem isNumber_int (n : Int) : IsNumber (intText n).toList (.int n) where
  numeral := ⟨_, _, intText_toList n⟩
  reads hrest := by
    have hvalue : digitsValue (Numeral.ofNat n.natAbs).whole = n.natAbs := digitsValue_toDigits _
    have hsigned : (if decide (n < 0) = true then -(n.natAbs : Int) else n.natAbs) = n := by
      by_cases hn : n < 0
      · rw [decide_eq_true hn, if_pos rfl]
        omega
      · rw [decide_eq_false hn, if_neg Bool.false_ne_true]
        omega
    rw [intText_toList, readNumber?_text _ _ hrest, hvalue, hsigned]
    rfl

/-! ## Spelled decimals -/

theorem isWhole_of_head {ds : List Char} (hds : AllDigits ds) (hne : ds ≠ [])
    (hhead : ds.head? ≠ some '0') : IsWhole ds :=
  ⟨hne, hds, fun h => absurd h hhead⟩

/-- Some numeral has a text, denotes a decimal, and is not that of an integer. -/
def Spells (cs : List Char) (d : Digits) : Prop :=
  ∃ n : Numeral, cs = n.text ∧ n.decimal.value = d.value ∧ n.isInteger = false

/-- Digits around a point spell the decimal of all digits. -/
theorem spells_of_point {whole places : List Char} (hwhole : IsWhole whole)
    (hplaces : AllDigits places) (hne : places ≠ []) {d : Digits}
    (hvalue : Digits.value ⟨digitsValue (whole ++ places), -places.length⟩ = d.value) :
    Spells (whole ++ '.' :: places) d := by
  refine ⟨⟨whole, places, none, hwhole, hplaces, fun p hp => absurd hp (Option.not_mem_none p)⟩,
    ?_, ?_, ?_⟩
  · simp [Numeral.text, placesText, powerText, hne]
  · simpa [Numeral.decimal, Numeral.power?] using hvalue
  · simp [Numeral.isInteger, hne]

section Point

variable {ds : List Char} (hds : AllDigits ds) (hne : ds ≠ [])

include hds hne

/-- Zeros stand behind the digits, up to the point. -/
theorem spells_zeros_behind (hhead : ds.head? ≠ some '0') (k : Nat) :
    Spells (ds ++ List.replicate k '0' ++ ['.', '0']) ⟨digitsValue ds, k⟩ := by
  have hwhole : IsWhole (ds ++ List.replicate k '0') :=
    isWhole_of_head (hds.append (allDigits_zeros k)) (by simp [hne])
      (by rwa [List.head?_append_of_ne_nil _ hne])
  apply spells_of_point hwhole (allDigits_zeros 1) (List.cons_ne_nil _ _)
  have hdigits : digitsValue (ds ++ List.replicate k '0' ++ List.replicate 1 '0') =
      digitsValue ds * 10 ^ (k + 1) := by
    rw [digitsValue_append_zeros, digitsValue_append_zeros, pow_add, Nat.mul_assoc]
  rw [hdigits, ← Digits.value_shift (digitsValue ds) (k + 1) k]
  congr 2
  simp

/-- The point stands among the digits. -/
theorem spells_among (hhead : ds.head? ≠ some '0') {k : Nat} (hk : k + 1 < ds.length) :
    Spells (ds.take (k + 1) ++ '.' :: ds.drop (k + 1))
      ⟨digitsValue ds, -(ds.length - (k + 1) : Nat)⟩ := by
  have hwhole : IsWhole (ds.take (k + 1)) :=
    isWhole_of_head (fun c hc => hds c (List.mem_of_mem_take hc)) (by simp [hne])
      (by rwa [List.head?_take, if_neg (Nat.succ_ne_zero k)])
  have hplaces : ds.drop (k + 1) ≠ [] := by
    rw [ne_eq, List.drop_eq_nil_iff]
    omega
  apply spells_of_point hwhole (fun c hc => hds c (List.mem_of_mem_drop hc)) hplaces
  rw [List.take_append_drop, List.length_drop]

/-- Zeros stand between the point and the digits. -/
theorem spells_zeros_before (k : Nat) :
    Spells ('0' :: '.' :: (List.replicate k '0' ++ ds))
      ⟨digitsValue ds, -(k + ds.length : Nat)⟩ := by
  have hwhole : IsWhole ['0'] := ⟨List.cons_ne_nil _ _, allDigits_zeros 1, fun _ => rfl⟩
  apply spells_of_point hwhole ((allDigits_zeros k).append hds) (by simp [hne])
  have hdigits : digitsValue (List.replicate (k + 1) '0' ++ ds) = digitsValue ds :=
    digitsValue_zeros_append (k + 1) ds
  rw [List.length_append, List.length_replicate, ← hdigits]
  rfl

end Point

/-- A power stands behind the first digit and its places. -/
theorem spells_power {c : Char} {places ps : List Char} (hds : AllDigits (c :: places))
    (hc : c ≠ '0') (hps : AllDigits ps) (hne : ps ≠ []) (minus : Bool) :
    Spells (c :: (placesText places ++ 'e' :: (if minus then '-' else '+') :: ps))
      ⟨digitsValue (c :: places),
        (if minus then -(digitsValue ps : Int) else digitsValue ps) - places.length⟩ := by
  have hwhole : IsWhole [c] :=
    isWhole_of_head (fun d hd => hds d (List.mem_cons.2 (.inl (List.mem_singleton.1 hd))))
      (List.cons_ne_nil _ _) (by simpa using hc)
  refine ⟨⟨[c], places, some (minus, ps), hwhole, fun d hd => hds d (List.mem_cons_of_mem _ hd),
    ?_⟩, rfl, rfl, ?_⟩
  · rintro p ⟨⟩
    exact ⟨hne, hps⟩
  · simp [Numeral.isInteger]

/-- A positive decimal is written as a numeral of its value, which is not that of an integer. -/
theorem spells_write {d : Digits} (hd : d.digits ≠ 0) : Spells (numberLayout.write d).toList d := by
  obtain ⟨m, e⟩ := d
  have hhead := head?_toDigits hd
  have hdigits := allDigits_toDigits m
  have hne : Nat.toDigits 10 m ≠ [] := Nat.toDigits_ne_nil
  have hvalue := digitsValue_toDigits m
  revert hhead hdigits hne hvalue
  unfold Layout.write
  simp only [digitsText, String.toList_ofList]
  generalize Nat.toDigits 10 m = ds
  rintro hhead hdigits hne rfl
  have hlength : 0 < ds.length := List.length_pos_of_ne_nil hne
  split
  · split
    · rename_i hwhole
      obtain ⟨k, rfl⟩ := Int.eq_ofNat_of_zero_le hwhole
      have hspells := spells_zeros_behind hdigits hne hhead k
      simpa using hspells
    · rename_i hnegative
      split
      · rename_i hlead
        obtain ⟨k, hk⟩ : ∃ k : Nat, e + ds.length - 1 = k := Int.eq_ofNat_of_zero_le hlead
        have hspells := spells_among hdigits hne hhead (k := k) (by omega)
        have he : e = -(ds.length - (k + 1) : Nat) := by omega
        rw [hk, Int.toNat_natCast]
        rw [he]
        simpa using hspells
      · rename_i hlead
        obtain ⟨k, hk⟩ : ∃ k : Nat, -(e + ds.length - 1) = k + 1 :=
          ⟨(-(e + ds.length - 1)).toNat - 1, by omega⟩
        have hspells := spells_zeros_before hdigits hne k
        have he : e = -(k + ds.length : Nat) := by omega
        have hzeros : (-(e + ds.length - 1)).toNat - 1 = k := by omega
        rw [hzeros, he]
        simpa using hspells
  · cases ds with
    | nil => exact absurd rfl hne
    | cons c places =>
      have hc : c ≠ '0' := fun h => hhead (congrArg some h)
      -- The power is that of the first digit.
      obtain ⟨lead, hlead⟩ : ∃ lead, e + (c :: places).length - 1 = lead := ⟨_, rfl⟩
      have hpower : AllDigits (List.replicate (2 - (Nat.toDigits 10 lead.natAbs).length) '0' ++
          Nat.toDigits 10 lead.natAbs) :=
        (allDigits_zeros _).append (allDigits_toDigits _)
      have hspells := spells_power hdigits hc hpower
        (List.append_ne_nil_of_right_ne_nil _ Nat.toDigits_ne_nil) (lead < 0)
      have he : e = (if decide (lead < 0) = true then -(lead.natAbs : Int) else lead.natAbs) -
          places.length := by
        rw [List.length_cons] at hlead
        by_cases hsign : lead < 0
        · rw [decide_eq_true hsign, if_pos rfl]
          omega
        · rw [decide_eq_false hsign, if_neg Bool.false_ne_true]
          omega
      rw [digitsValue_zeros_append, digitsValue_toDigits, ← he] at hspells
      rw [hlead]
      have hsign : (if lead < 0 then "-" else "+").toList =
          [if decide (lead < 0) = true then '-' else '+'] := by
        by_cases hsign : lead < 0 <;> simp [hsign]
      cases places <;>
        simpa [hsign, padLeft, placesText, numberLayout, Workgraph.numberLayout] using hspells

/-! ## Binary64 numbers -/

theorem isNumber_spells {cs : List Char} {d : Digits} (h : Spells cs d) (negative : Bool) :
    ∃ d' : Digits, d'.value = d.value ∧ IsNumber (signText negative ++ cs)
      (.real (.ofDecimal negative d'.digits d'.exponent)) := by
  obtain ⟨n, rfl, hvalue, hinteger⟩ := h
  refine ⟨n.decimal, hvalue, ⟨negative, n, rfl⟩, fun hrest => ?_⟩
  rw [readNumber?_text n negative hrest, hinteger]
  rfl

theorem digits_eq_zero {d : Digits} (h : d.value = 0) : d.digits = 0 := by
  rcases mul_eq_zero.1 h with hdigits | hpower
  · exact_mod_cast hdigits
  · exact absurd hpower (zpow_ne_zero _ (by norm_num))

theorem isNumber_zero (negative : Bool) :
    IsNumber (signText negative ++ "0.0".toList) (.real (.zero negative)) := by
  have hspells : Spells "0.0".toList ⟨0, -1⟩ :=
    spells_zeros_before (allDigits_zeros 1) (List.cons_ne_nil _ _) 0
  obtain ⟨d, hvalue, hnumber⟩ := isNumber_spells hspells negative
  have hdigits : d.digits = 0 := digits_eq_zero (hvalue.trans (by simp [Digits.value]))
  rwa [Binary64.ofDecimal, if_pos hdigits] at hnumber

/-- **A finite binary64 number reads back.** -/
theorem isNumber_finite (negative : Bool) {units : Nat} (hunits : Representable units) :
    IsNumber (numberLayout.render (.finite negative units hunits)).toList
      (.real (.finite negative units hunits)) := by
  have hsign : (if negative = true then "-" else "").toList = signText negative := by
    cases negative <;> rfl
  simp only [Layout.render, String.toList_append, hsign]
  by_cases hzero : units = 0
  · subst hzero
    have hnumber := isNumber_zero negative
    rwa [Binary64.zero, Binary64.ofUnits, dif_pos hunits] at hnumber
  · have hpos := Nat.pos_of_ne_zero hzero
    have hnear := Binary64.near_shortest hpos
    obtain ⟨d, hvalue, hnumber⟩ :=
      isNumber_spells (spells_write (Binary64.digits_pos hpos hnear)) negative
    rw [← hvalue] at hnear
    rw [if_neg hzero]
    rwa [Binary64.ofDecimal_of_near hpos hunits hnear] at hnumber

end Json

end Workgraph
