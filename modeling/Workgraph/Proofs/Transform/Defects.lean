import Workgraph.Proofs.Transform
/-!
# What rounding answers

A value is rounded to a number, or refused for one of three reasons: the value is no number, the
places are no integer, or the number cannot be rounded to so many places (`Transform.RoundRefusal`).
What is left are single operations that break down before any of it is told: words that show an
integer with more digits than are converted, the text of such an integer, infinitely many places,
and places that no power of ten stands for (`Transform.RoundDefect`). These are exactly the defects
with which rounding fails (`Transform.round_answers`).
-/

namespace Workgraph.Transform

/-! ## Places -/

/-- The number of places that a value stands for: a number towards zero, and a text that spells an
integer. -/
inductive Places : Value → ℤ → Prop
  | bool (b : Bool) : Places (.bool b) (if b then 1 else 0)
  | int (p : ℤ) : Places (.int p) p
  | real {x : Binary64} {p : ℤ} (h : x.truncate? = some p) : Places (.real x) p
  | text {s : String} {p : ℤ} (h : readInteger s = .ok p) : Places (.text s) p

theorem Places.unique {v : Value} {p q : ℤ} (h : Places v p) (h' : Places v q) : p = q := by
  cases h with
  | bool b => cases h'; rfl
  | int p => cases h'; rfl
  | real h =>
    cases h' with
    | real h' => exact Option.some.inj (h.symm.trans h')
  | text h =>
    cases h' with
    | text h' => exact Except.ok.inj (h.symm.trans h')

/-- What reading a number of places comes to. -/
inductive PlacesReading (places : Value) : Except Fault ℤ → Prop
  | read {p : ℤ} (h : Places places p) : PlacesReading places (.ok p)
  | infinite {negative : Bool} (h : places = .real (.infinite negative)) :
      PlacesReading places (.error (.defect .infiniteInteger))
  | long (h : ∀ p, ¬ Places places p) (hlong : places.hasLongInteger = true) :
      PlacesReading places (.error (.defect .longInteger))
  | refused (h : ∀ p, ¬ Places places p)
      (hfinite : ∀ negative, places ≠ .real (.infinite negative))
      (hshort : places.hasLongInteger = false) (behind : String) :
      PlacesReading places (.error
        (.transform "round" ("decimalPlaces " ++ places.literal ++ " is not an integer") behind))

theorem placesOf_reading (params : Entries Value) :
    PlacesReading (param params "decimalPlaces" (.int 0)) (placesOf params) := by
  -- A value that is no number of places is shown in the words about it.
  have hrefused : ∀ (v : Value) (behind : String), (∀ p, ¬ Places v p) →
      (∀ negative, v ≠ .real (.infinite negative)) →
        PlacesReading v (if v.hasLongInteger then .error (.defect .longInteger)
          else round.refuse ("decimalPlaces " ++ v.literal ++ " is not an integer") behind) := by
    intro v behind hno hfinite
    split
    · rename_i hlong
      exact .long hno hlong
    · rename_i hshort
      exact .refused hno hfinite (Bool.eq_false_iff.2 hshort) behind
  unfold placesOf
  dsimp only
  cases param params "decimalPlaces" (.int 0) with
  | null => exact hrefused .null _ nofun nofun
  | bool b => exact .read (.bool b)
  | int p => exact .read (.int p)
  | real x =>
    cases x with
    | nan => exact hrefused (.real .nan) _ (by rintro p ⟨⟩; contradiction) nofun
    | infinite negative => exact .infinite rfl
    | finite negative units hunits => exact .read (.real rfl)
  | text s =>
    cases hread : readInteger s with
    | ok p => simpa [hread] using PlacesReading.read (.text hread)
    | error e =>
      have hno : ∀ p, ¬ Places (.text s) p := by
        rintro p ⟨⟩
        rename_i h
        rw [hread] at h
        cases h
      simpa [hread] using hrefused (.text s) "ValueError" hno nofun
  | list items => exact hrefused (.list items) _ nofun nofun
  | object fields => exact hrefused (.object fields) _ nofun nofun

namespace PlacesReading

variable {places : Value} {reading : Except Fault ℤ}

/-- Places that stand for a number are read as it. -/
theorem eq_ok (h : PlacesReading places reading) {p : ℤ} (hp : Places places p) :
    reading = .ok p := by
  cases h with
  | read hread => rw [hread.unique hp]
  | infinite hinfinite =>
    subst hinfinite
    cases hp with
    | real htruncate => cases htruncate
  | long hno _ => exact absurd hp (hno p)
  | refused hno _ _ _ => exact absurd hp (hno p)

theorem eq_infinite (h : PlacesReading places reading) {negative : Bool}
    (hinfinite : places = .real (.infinite negative)) :
    reading = .error (.defect .infiniteInteger) := by
  subst hinfinite
  cases h with
  | read hread =>
    cases hread with
    | real htruncate => cases htruncate
  | infinite _ => rfl
  | long _ hlong => cases hlong
  | refused _ hfinite _ _ => exact absurd rfl (hfinite negative)

theorem eq_long (h : PlacesReading places reading) (hno : ∀ p, ¬ Places places p)
    (hlong : places.hasLongInteger = true) : reading = .error (.defect .longInteger) := by
  cases h with
  | read hread => exact absurd hread (hno _)
  | infinite hinfinite =>
    subst hinfinite
    cases hlong
  | long _ _ => rfl
  | refused _ _ hshort _ =>
    rw [hlong] at hshort
    cases hshort

end PlacesReading

/-! ## Answers -/

/-- Why a value is not rounded, with the name of the failure behind it. -/
inductive RoundRefusal (v places : Value) : String → Option String → Prop
  | value (h : v.toNumber? = none) :
      RoundRefusal v places ("value " ++ v.literal ++ " is not numeric") none
  | places (h : ∀ p, ¬ Places places p) (behind : String) : RoundRefusal v places
      ("decimalPlaces " ++ places.literal ++ " is not an integer") behind
  | size {n : Number} {p : ℤ} (h : v.toNumber? = some n) (hp : Places places p) :
      RoundRefusal v places "[<class 'decimal.InvalidOperation'>]" "InvalidOperation"

/-- The defects with which a value is rounded. -/
inductive RoundDefect (v places : Value) : Defect → Prop
  | longValue (h : v.toNumber? = none) (hlong : v.hasLongInteger = true) :
      RoundDefect v places .longInteger
  | infinitePlaces {n : Number} {negative : Bool} (h : v.toNumber? = some n)
      (hp : places = .real (.infinite negative)) : RoundDefect v places .infiniteInteger
  | longPlaces {n : Number} (h : v.toNumber? = some n) (hp : ∀ p, ¬ Places places p)
      (hlong : places.hasLongInteger = true) : RoundDefect v places .longInteger
  | longNumber {n : Number} {p : ℤ} (h : v.toNumber? = some n) (hp : Places places p)
      (hlong : (Value.ofNumber n).hasLongInteger = true) : RoundDefect v places .longInteger
  | farPlaces {n : Number} {p : ℤ} (h : v.toNumber? = some n) (hp : Places places p)
      (hshort : (Value.ofNumber n).hasLongInteger = false) (hleast : -2000054 ≤ p)
      (hmost : p ≤ -1000000) : RoundDefect v places .decimalOverflow

/-- What rounding a value comes to. -/
inductive RoundAnswer (v places : Value) : Except Fault Value → Prop
  | number {n : Number} {p : ℤ} (h : v.toNumber? = some n) (hp : Places places p) (q : Number) :
      RoundAnswer v places (.ok (.ofNumber q))
  | refused {reason : String} {behind : Option String} (h : RoundRefusal v places reason behind) :
      RoundAnswer v places (.error (.transform "round" reason behind))
  | broken {d : Defect} (h : RoundDefect v places d) : RoundAnswer v places (.error (.defect d))

theorem roundedTo_answers (exponent : ℤ) (n : Number) :
    (∃ k, roundedTo exponent n = .ok (.ofNumber k)) ∨ roundedTo exponent n = unroundable := by
  unfold roundedTo
  dsimp only
  -- Every way through ends in an integer, a binary64 number or a refusal.
  repeat' split
  all_goals
    first
    | exact .inr rfl
    | exact .inl ⟨.int _, rfl⟩
    | exact .inl ⟨.real _, rfl⟩

theorem placesExponent_cases (p : ℤ) :
    (∃ exponent, placesExponent p = .ok exponent) ∨ placesExponent p = .error .invalid ∨
      -2000054 ≤ p ∧ p ≤ -1000000 ∧ placesExponent p = .error .overflow := by
  unfold placesExponent Decimal.maxExponent
  split
  · exact .inr (.inl rfl)
  · split
    · exact .inr (.inr ⟨by omega, by omega, rfl⟩)
    · exact .inl ⟨_, rfl⟩

theorem placesExponent_overflow {p : ℤ} (hleast : -2000054 ≤ p) (hmost : p ≤ -1000000) :
    placesExponent p = .error .overflow := by
  unfold placesExponent Decimal.maxExponent
  rw [if_neg (by omega), if_pos (by omega)]

theorem roundOf_answer (v : Value) (params : Entries Value) :
    RoundAnswer v (param params "decimalPlaces" (.int 0)) (roundOf v params) := by
  have hplaces := placesOf_reading params
  unfold roundOf
  cases hnumber : v.toNumber? with
  | none =>
    simp only
    split
    · rename_i hlong
      exact .broken (.longValue hnumber hlong)
    · exact .refused (.value hnumber)
  | some n =>
    simp only [bind, Except.bind]
    revert hplaces
    generalize placesOf params = reading
    intro hplaces
    cases hplaces with
    | infinite h => exact .broken (.infinitePlaces hnumber h)
    | long h hlong => exact .broken (.longPlaces hnumber h hlong)
    | refused h hfinite hshort behind => exact .refused (.places h behind)
    | read h =>
      rename_i p
      simp only
      split
      · rename_i hlong
        exact .broken (.longNumber hnumber h hlong)
      · rename_i hshort
        rcases placesExponent_cases p with ⟨exponent, he⟩ | he | ⟨hleast, hmost, he⟩
        · rw [he]
          rcases roundedTo_answers exponent n with ⟨k, hk⟩ | hk
          · simpa [hk] using RoundAnswer.number hnumber h k
          · simp only [hk]
            exact .refused (.size hnumber h)
        · rw [he]
          exact .refused (.size hnumber h)
        · rw [he]
          exact .broken (.farPlaces hnumber h (Bool.eq_false_iff.2 hshort) hleast hmost)

/-- Defects are what rounding comes to. -/
theorem RoundDefect.eq_error {v : Value} {params : Entries Value} {d : Defect}
    (h : RoundDefect v (param params "decimalPlaces" (.int 0)) d) :
    roundOf v params = .error (.defect d) := by
  have hplaces := placesOf_reading params
  unfold roundOf
  cases h with
  | longValue hv hlong =>
    rw [hv]
    exact if_pos hlong
  | infinitePlaces hv hp =>
    rw [hv, hplaces.eq_infinite hp]
    rfl
  | longPlaces hv hp hlong =>
    rw [hv, hplaces.eq_long hp hlong]
    rfl
  | longNumber hv hp hlong =>
    rw [hv, hplaces.eq_ok hp]
    exact if_pos hlong
  | farPlaces hv hp hshort hleast hmost =>
    rw [hv, hplaces.eq_ok hp]
    refine (if_neg (Bool.eq_false_iff.1 hshort)).trans ?_
    rw [placesExponent_overflow hleast hmost]

/-- **A value is rounded to a number or refused, but for five kinds of defects.** -/
theorem round_answers (params : Entries Value) (context : Context) (v : Value) :
    ((∃ q, (∃ n, v.toNumber? = some n) ∧
        (∃ p, Places (param params "decimalPlaces" (.int 0)) p) ∧
          applyNamed "round" params context v = .ok (.ofNumber q)) ∨
      (∃ reason behind, RoundRefusal v (param params "decimalPlaces" (.int 0)) reason behind ∧
        applyNamed "round" params context v = .error (.transform "round" reason behind)) ∨
      ∃ d, applyNamed "round" params context v = .error (.defect d)) ∧
    ∀ d, applyNamed "round" params context v = .error (.defect d) ↔
      RoundDefect v (param params "decimalPlaces" (.int 0)) d := by
  have hanswer : RoundAnswer v (param params "decimalPlaces" (.int 0))
      (applyNamed "round" params context v) := roundOf_answer v params
  constructor
  · revert hanswer
    generalize applyNamed "round" params context v = result
    intro hanswer
    cases hanswer with
    | number h hp q => exact .inl ⟨q, ⟨_, h⟩, ⟨_, hp⟩, rfl⟩
    | refused h => exact .inr (.inl ⟨_, _, h, rfl⟩)
    | broken _ => exact .inr (.inr ⟨_, rfl⟩)
  · intro d
    constructor
    · intro hd
      rw [hd] at hanswer
      cases hanswer with
      | broken h => exact h
    · exact RoundDefect.eq_error

/-- Infinitely many places are no failure of the transform. -/
theorem infinite_places_break :
    applyNamed "round" [("decimalPlaces", .real (.infinite false))] [] (.int 1) =
      .error (.defect .infiniteInteger) := rfl

end Workgraph.Transform
