import Workgraph.Number.Numeral
import Workgraph.Proofs.Number.HalfUp
import Workgraph.Proofs.Value.Numeral
import Workgraph.Value.Literal
/-!
# The decimals that texts of numbers spell

A text spells a decimal by a sign, digits with an optional point, and an optional power of ten
(`spelledDecimal?`). The text of a finite number spells the decimal by which the number is rounded
(`spelledDecimal?_text`): an integer itself, and a binary64 number its fewest digits.
-/

namespace Workgraph

/-- The decimal that a text spells. -/
def spelledDecimal? (s : String) : Option ℚ :=
  let (negative, body) := readSign s.toList
  (readDecimal? body).map fun (digits, exponent) => Decimal.value ⟨negative, digits, exponent⟩

namespace Number

/-- The text of a number. -/
def text : Number → String
  | int n => intText n
  | real x => realText x

/-- The decimal of a finite number. -/
def decimal? : Number → Option Decimal
  | int n => some (Decimal.ofInt n)
  | real x => Decimal.ofReal? x

end Number

/-! ## Reading written numbers -/

theorem readSign_text (n : Json.Numeral) (negative : Bool) :
    readSign (Json.signText negative ++ n.text) = (negative, n.text) := by
  cases negative with
  | true => rfl
  | false =>
    have hne := n.isWhole.ne_nil
    have hdigits := n.isWhole.allDigits
    unfold Json.Numeral.text Json.signText
    cases hwhole : n.whole with
    | nil => exact absurd hwhole hne
    | cons c ds =>
      -- A digit is no sign.
      rw [hwhole] at hdigits
      have hc := hdigits c List.mem_cons_self
      have hminus : c ≠ '-' := by
        rintro rfl
        cases hc
      have hplus : c ≠ '+' := by
        rintro rfl
        cases hc
      simp [readSign, hminus, hplus]

theorem readSign_power (minus : Bool) (ds : List Char) :
    readSign ((if minus then '-' else '+') :: ds) = (minus, ds) := by
  cases minus <;> rfl

/-- The digits behind a point, and the rest. -/
def cutPlaces : List Char → List Char × List Char
  | '.' :: rest => rest.span Char.isDigit
  | cs => ([], cs)

/-- The power at the end of a decimal, zero if there is none. -/
def readPower? : List Char → Option Int
  | [] => some 0
  | e :: rest =>
    if e = 'e' || e = 'E' then
      if (readSign rest).2.isEmpty || !(readSign rest).2.all Char.isDigit then none
      else some (if (readSign rest).1 then -(decimalNat (readSign rest).2 : Int)
        else decimalNat (readSign rest).2)
    else none

/-- What is read of a decimal behind its digits. -/
theorem readPower?_map (digits : Nat) (places rest : List Char) :
    (match rest with
      | [] => some (digits, -(places.length : Int))
      | e :: r =>
        if e = 'e' || e = 'E' then
          let (minus, r') := readSign r
          if r'.isEmpty || !r'.all Char.isDigit then none
          else
            let n : Int := decimalNat r'
            some (digits, (if minus then -n else n) - places.length)
        else none) = (readPower? rest).map fun n : Int => (digits, n - (places.length : Int)) := by
  cases rest with
  | nil => simp [readPower?]
  | cons e rest =>
    simp only [readPower?]
    split
    · split <;> rfl
    · rfl

/-- A decimal is read in three steps. -/
theorem readDecimal?_eq {cs whole places behind rest : List Char}
    (hwhole : cs.span Char.isDigit = (whole, behind)) (hplaces : cutPlaces behind = (places, rest))
    (hne : whole ≠ []) : readDecimal? cs = (readPower? rest).map fun n : Int =>
      (decimalNat (whole ++ places), n - (places.length : Int)) := by
  have hsome : (whole.isEmpty && places.isEmpty) = false := by simp [hne]
  rw [← readPower?_map]
  unfold readDecimal?
  rw [hwhole]
  cases behind with
  | nil =>
    cases hplaces
    simp only [hsome]
    rfl
  | cons c behind =>
    by_cases hc : c = '.'
    · subst hc
      have hspan : behind.span Char.isDigit = (places, rest) := hplaces
      simp only [hspan, hsome]
      rfl
    · have hnone : cutPlaces (c :: behind) = ([], c :: behind) := by simp [cutPlaces, hc]
      rw [hnone] at hplaces
      cases hplaces
      simp [hc, hne]

theorem cutPlaces_append {places rest : List Char} (hplaces : Json.AllDigits places)
    (hrest : Json.NoDigitFirst rest) (hpoint : rest.head? ≠ some '.') :
    cutPlaces (Json.placesText places ++ rest) = (places, rest) := by
  cases places with
  | nil =>
    cases rest with
    | nil => rfl
    | cons c rest =>
      have hc : c ≠ '.' := fun h => hpoint (congrArg some h)
      simp [Json.placesText, cutPlaces, hc]
  | cons c places => exact Json.spanDigits_append hplaces hrest

theorem readPower?_powerText {power : Option (Bool × List Char)}
    (hpower : ∀ p ∈ power, p.2 ≠ [] ∧ Json.AllDigits p.2) :
    readPower? (Json.powerText power) = some ((power.map fun p =>
      if p.1 then -(Json.digitsValue p.2 : Int) else Json.digitsValue p.2).getD 0) := by
  rcases power with _ | ⟨minus, ds⟩
  · rfl
  · obtain ⟨hne, hds⟩ := hpower (minus, ds) rfl
    have hread : (ds.isEmpty || !ds.all Char.isDigit) = false := by
      simp [hne, List.all_eq_true.2 hds]
    simp only [Json.powerText, readPower?, readSign_power, hread]
    rfl

/-- **A numeral is read as the decimal that it writes.** -/
theorem readDecimal?_text (n : Json.Numeral) :
    readDecimal? n.text = some (n.decimal.digits, n.decimal.exponent) := by
  have hstops : Json.Stops [] := fun _ hc => absurd hc (Option.not_mem_none _)
  obtain ⟨hfirst, hpoint⟩ := n.head?_powerText hstops
  have hbehind := n.noDigitFirst_places hstops
  rw [List.append_nil] at hfirst hpoint hbehind
  have hwhole : n.text.span Char.isDigit = (n.whole, _) :=
    Json.spanDigits_append n.isWhole.allDigits hbehind
  rw [readDecimal?_eq hwhole (cutPlaces_append n.allDigits_places hfirst hpoint)
    n.isWhole.ne_nil, readPower?_powerText n.isPower]
  rfl

/-! ## The texts of numbers -/

theorem value_neg (negative : Bool) {d d' : Digits} (h : d.value = d'.value) :
    Decimal.value ⟨negative, d.digits, d.exponent⟩ =
      Decimal.value ⟨negative, d'.digits, d'.exponent⟩ := by
  unfold Decimal.value
  rw [Decimal.magnitude_mk, Decimal.magnitude_mk, h]

/-- A signed numeral spells its decimal with the sign. -/
theorem spelledDecimal?_numeral {s : String} {negative : Bool} {n : Json.Numeral}
    (hs : s.toList = Json.signText negative ++ n.text) {d : Digits}
    (hd : n.decimal.value = d.value) :
    spelledDecimal? s = some (Decimal.value ⟨negative, d.digits, d.exponent⟩) := by
  unfold spelledDecimal?
  rw [hs, readSign_text]
  simp only [readDecimal?_text, Option.map_some]
  exact congrArg some (value_neg negative hd)

/-- **The text of a number spells its decimal.** -/
theorem spelledDecimal?_text (n : Number) :
    spelledDecimal? n.text = n.decimal?.map Decimal.value := by
  cases n with
  | int i =>
    have hvalue : (Json.Numeral.ofNat i.natAbs).decimal.value = Digits.value ⟨i.natAbs, 0⟩ := by
      have hdigits : Json.digitsValue (Nat.toDigits 10 i.natAbs ++ []) = i.natAbs := by
        rw [List.append_nil, Json.digitsValue_toDigits]
      unfold Json.Numeral.decimal Json.Numeral.ofNat
      simp only [hdigits]
      rfl
    exact spelledDecimal?_numeral (Json.intText_toList i) hvalue
  | real x =>
    cases x with
    | nan => rfl
    | infinite negative => cases negative <;> rfl
    | finite negative units hunits =>
      have hsign : (if negative = true then "-" else "").toList = Json.signText negative := by
        cases negative <;> rfl
      -- Zero has a text of its own.
      have hspells : ∃ d : Digits, (Number.real (.finite negative units hunits)).decimal? =
          some ⟨negative, d.digits, d.exponent⟩ ∧
            ∃ cs, (Number.real (.finite negative units hunits)).text.toList =
              Json.signText negative ++ cs ∧ Json.Spells cs d := by
        by_cases hzero : units = 0
        · refine ⟨⟨0, 0⟩, if_pos hzero, "0.0".toList, ?_, ?_⟩
          · simp only [Number.text, realText, Layout.render, String.toList_append, hsign,
              if_pos hzero]
          · obtain ⟨n, htext, hvalue, hinteger⟩ :=
              Json.spells_zeros_before (Json.allDigits_zeros 1) (List.cons_ne_nil _ _) 0
            exact ⟨n, htext, hvalue.trans (by simp [Digits.value, Json.digitsValue]), hinteger⟩
        · have hpos := Nat.pos_of_ne_zero hzero
          refine ⟨Binary64.shortest units, if_neg hzero,
            (numberLayout.write (Binary64.shortest units)).toList, ?_, ?_⟩
          · simp only [Number.text, realText, Layout.render, String.toList_append, hsign,
              if_neg hzero]
          · exact Json.spells_write (Binary64.digits_pos hpos (Binary64.near_shortest hpos))
      obtain ⟨d, hdecimal, cs, htext, numeral, rfl, hvalue, -⟩ := hspells
      rw [hdecimal]
      exact spelledDecimal?_numeral htext hvalue

end Workgraph
