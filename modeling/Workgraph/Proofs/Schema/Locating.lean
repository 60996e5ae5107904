import Mathlib.Tactic
import Workgraph.Schema.Part
/-!
# Where values do not fit

A misfit names a place, step by step from the value that was read, and a reason. The place leads to
a part that is wrong for that reason, or to a field that its record lacks (`PointsAt`). What holds
of the misfits of the parts carries over to those of the whole, step by step, in every way of
putting parts together (`Fit.Each`).
-/

namespace Workgraph

namespace Schema

variable {α β : Type}

/-- The reason is true of the value. -/
inductive Offends : Value → Reason → Prop
  | text {v : Value} : (∀ s, v ≠ .text s) → Offends v .notText
  | empty : Offends (.text "") .emptyText
  | integer {v : Value} {reason : Reason} : integer v = .refuse reason → Offends v reason
  | lowInteger {v : Value} {n : Int} {bound : Nat} :
      integer v = .fits n → n < bound → Offends v (.below bound)
  | real {v : Value} {reason : Reason} : real v = .refuse reason → Offends v reason
  | lowReal {v : Value} {x : Binary64} {bound : Nat} :
      real v = .fits x → reaches bound true x = false → Offends v (.below bound)
  | list {v : Value} : (∀ items, v ≠ .list items) → Offends v .notList
  | dictionary {v : Value} : (∀ fields, v ≠ .object fields) → Offends v .notDictionary
  | record {v : Value} {name : String} :
      (∀ fields, v ≠ .object fields) → Offends v (.notRecord name)
  | among {v : Value} {names : List String} :
      (∀ s ∈ names, v ≠ .text s) → Offends v (.notAmong names)

/-- From a value a place leads to a part of which the reason is true, or to a field that is not
there. -/
inductive PointsAt : Value → List Step → Reason → Prop
  | here {v : Value} {reason : Reason} : Offends v reason → PointsAt v [] reason
  | absent {fields : Entries Value} {name : String} :
      fields.get? name = none → PointsAt (.object fields) [.field name] .missing
  | field {fields : Entries Value} {name : String} {v : Value} {place : List Step}
      {reason : Reason} : (name, v) ∈ fields → PointsAt v place reason →
      PointsAt (.object fields) (.field name :: place) reason
  | item {items : List Value} {index : Nat} {v : Value} {place : List Step} {reason : Reason} :
      items[index]? = some v → PointsAt v place reason →
      PointsAt (.list items) (.item index :: place) reason

/-- The value as a whole is wrong. -/
def Whole (v : Value) (place : List Step) (reason : Reason) : Prop := place = [] ∧ Offends v reason

/-- All misfits have a property. -/
def Fit.Each (P : List Step → Reason → Prop) (a : Fit α) : Prop :=
  ∀ found, a = .misfits found → ∀ m ∈ found, P m.path m.reason

namespace Fit

variable {P Q : List Step → Reason → Prop} {a : Fit α}

theorem Each.fits (x : α) : (Fit.fits x).Each P := by
  intro found h
  cases h

theorem Each.refuse {reason : Reason} (h : P [] reason) : (Fit.refuse reason : Fit α).Each P := by
  rintro found ⟨⟩ m hm
  rw [List.mem_singleton.1 hm]
  exact h

theorem Each.mono (h : a.Each P) (hPQ : ∀ place reason, P place reason → Q place reason) :
    a.Each Q :=
  fun found hfound m hm => hPQ _ _ (h found hfound m hm)

theorem Each.map (h : a.Each P) (f : α → β) : (f <$> a).Each P := by
  cases a with
  | fits x => exact .fits (f x)
  | misfits found =>
    rintro found' ⟨⟩
    exact h found rfl

theorem Each.seq {f : Fit (α → β)} (hf : f.Each P) (ha : a.Each P) : (f <*> a).Each P := by
  cases f with
  | fits g =>
    cases a with
    | fits x => exact .fits (g x)
    | misfits found =>
      rintro found' ⟨⟩
      exact ha found rfl
  | misfits found =>
    cases a with
    | fits x =>
      rintro found' ⟨⟩
      exact hf found rfl
    | misfits more =>
      rintro found' ⟨⟩ m hm
      rcases List.mem_append.1 hm with hm | hm
      · exact hf found rfl m hm
      · exact ha more rfl m hm

/-- A step to a part comes before the places in the part. -/
theorem Each.within (h : a.Each P) {step : Step}
    (hstep : ∀ place reason, P place reason → Q (step :: place) reason) :
    (a.within step).Each Q := by
  cases a with
  | fits x => exact .fits x
  | misfits found =>
    rintro found' ⟨⟩ m hm
    obtain ⟨inner, hinner, rfl⟩ := List.mem_map.1 hm
    exact hstep _ _ (h found rfl inner hinner)

theorem Each.check (h : a.Each P) {next : α → Fit β} (hnext : ∀ x, a = .fits x → (next x).Each P) :
    (a.check next).Each P := by
  cases a with
  | fits x => exact hnext x rfl
  | misfits found =>
    rintro found' ⟨⟩
    exact h found rfl

/-- A field that must be there is missing. -/
theorem Each.missing {wire : String} (h : Q [.field wire] .missing) :
    ((Fit.refuse .missing : Fit α).within (.field wire)).Each Q := by
  have hmissing : (Fit.refuse .missing : Fit α).Each fun place reason =>
      place = [] ∧ reason = .missing := .refuse ⟨rfl, rfl⟩
  refine hmissing.within ?_
  rintro place reason ⟨rfl, rfl⟩
  exact h

end Fit

open Fit

/-! ## Values as a whole -/

theorem each_text (v : Value) : (text v).Each (Whole v) := by
  cases v with
  | text s => exact .fits s
  | _ => exact .refuse ⟨rfl, .text (by simp)⟩

theorem each_someText (v : Value) : (someText v).Each (Whole v) := by
  refine (each_text v).check fun s hs => ?_
  split
  -- Of the texts only the empty one is refused.
  · rename_i hempty
    obtain rfl : v = .text s := by
      cases v <;> simp_all [text, Fit.refuse]
    exact .refuse ⟨rfl, hempty ▸ .empty⟩
  · exact .fits s

theorem each_any {P : List Step → Reason → Prop} (v : Value) : (any v).Each P := .fits v

/-- An integer is refused as a whole. -/
theorem integer_cases (v : Value) :
    (∃ n, integer v = .fits n) ∨ ∃ reason, integer v = .refuse reason := by
  unfold integer
  split
  · exact .inl ⟨_, rfl⟩
  · exact .inl ⟨_, rfl⟩
  · split
    · exact .inr ⟨_, rfl⟩
    · split_ifs
      · exact .inr ⟨_, rfl⟩
      · exact .inl ⟨_, rfl⟩
      · exact .inr ⟨_, rfl⟩
  · dsimp only
    split_ifs
    · exact .inr ⟨_, rfl⟩
    · split
      · exact .inl ⟨_, rfl⟩
      · exact .inr ⟨_, rfl⟩
  · exact .inr ⟨_, rfl⟩

theorem each_integer (v : Value) : (integer v).Each (Whole v) := by
  rcases integer_cases v with ⟨n, h⟩ | ⟨reason, h⟩
  · rw [h]
    exact .fits n
  · rw [h]
    exact .refuse ⟨rfl, .integer h⟩

theorem each_integerFrom (bound : Nat) (v : Value) : (integerFrom bound v).Each (Whole v) := by
  refine (each_integer v).check fun n hn => ?_
  split
  · rename_i hlow
    exact .refuse ⟨rfl, .lowInteger hn hlow⟩
  · exact .fits n

/-- A binary64 number is refused as a whole. -/
theorem real_cases (v : Value) :
    (∃ x, real v = .fits x) ∨ ∃ reason, real v = .refuse reason := by
  have hoption : ∀ (reason : Reason) (x : Option Binary64),
      (∃ y, Fit.ofOption reason x = .fits y) ∨ ∃ r, Fit.ofOption reason x = .refuse r := by
    rintro reason (_ | x)
    · exact .inr ⟨reason, rfl⟩
    · exact .inl ⟨x, rfl⟩
  cases v with
  | bool b => exact .inl ⟨_, rfl⟩
  | real x => exact .inl ⟨x, rfl⟩
  | int n => exact hoption .notNumber (Binary64.ofInt? n)
  | text s => exact hoption .numberText (realText? s)
  | _ => exact .inr ⟨.notNumber, rfl⟩

theorem each_realFrom (bound : Nat) (v : Value) : (realFrom bound v).Each (Whole v) := by
  have heach : (real v).Each (Whole v) := by
    rcases real_cases v with ⟨x, h⟩ | ⟨reason, h⟩
    · rw [h]
      exact .fits x
    · rw [h]
      exact .refuse ⟨rfl, .real h⟩
  refine heach.check fun x hx => ?_
  split
  · exact .fits x
  · rename_i hlow
    exact .refuse ⟨rfl, .lowReal hx (Bool.eq_false_iff.2 hlow)⟩

theorem each_among {names : List String} {ofName? : String → Option α}
    (hnames : ∀ s ∈ names, (ofName? s).isSome = true) (v : Value) :
    (among names ofName? v).Each (Whole v) := by
  unfold among
  dsimp only
  split
  · exact .fits _
  -- A text among the names would have been one of them.
  · rename_i hnone
    refine .refuse ⟨rfl, .among ?_⟩
    rintro s hs rfl
    have hsome := hnames s hs
    have hno : ofName? s = none := hnone
    rw [hno] at hsome
    cases hsome

/-! ## Values with parts -/

section Parts

variable {part : Value → Fit α} {P : Value → List Step → Reason → Prop}
  (hpart : ∀ v, (part v).Each (P v))

include hpart

theorem each_nullable (v : Value) : (nullable part v).Each (P v) := by
  unfold nullable
  split
  · exact .fits _
  · exact (hpart v).map some

theorem each_itemsFrom {Q : List Step → Reason → Prop} (items : List Value) : ∀ start,
    (∀ i v, items[i]? = some v → ∀ place reason, P v place reason →
      Q (.item (start + i) :: place) reason) → (itemsFrom part start items).Each Q := by
  induction items with
  | nil => exact fun _ _ => .fits []
  | cons v rest ih =>
    intro start hitem
    refine (((hpart v).within (hitem 0 v rfl)).map _).seq (ih (start + 1) fun i w hw => ?_)
    have hshift : start + 1 + i = start + (i + 1) := by omega
    rw [hshift]
    exact hitem (i + 1) w hw

theorem each_list {Q : List Step → Reason → Prop} {v : Value}
    (hlist : (∀ items, v ≠ .list items) → Q [] .notList)
    (hitem : ∀ items i w, v = .list items → items[i]? = some w → ∀ place reason,
      P w place reason → Q (.item i :: place) reason) : (list part v).Each Q := by
  cases v with
  | list items =>
    refine each_itemsFrom hpart items 0 fun i w hw => ?_
    rw [Nat.zero_add]
    exact hitem items i w rfl hw
  | _ => exact .refuse (hlist (by simp))

theorem each_entriesOf {Q : List Step → Reason → Prop} (fields : Entries Value) :
    (∀ k v, (k, v) ∈ fields → ∀ place reason, P v place reason → Q (.field k :: place) reason) →
      (entriesOf part fields).Each Q := by
  induction fields with
  | nil => exact fun _ => .fits []
  | cons e rest ih =>
    intro hentry
    refine ((((hpart e.2).within (hentry e.1 e.2 List.mem_cons_self)).map _).map _).seq ?_
    exact ih fun k v hmem => hentry k v (List.mem_cons_of_mem _ hmem)

theorem each_dictionary {Q : List Step → Reason → Prop} {v : Value}
    (hobject : (∀ fields, v ≠ .object fields) → Q [] .notDictionary)
    (hentry : ∀ fields k w, v = .object fields → (k, w) ∈ fields → ∀ place reason,
      P w place reason → Q (.field k :: place) reason) : (dictionary part v).Each Q := by
  cases v with
  | object fields => exact each_entriesOf hpart fields fun k w => hentry fields k w rfl
  | _ => exact .refuse (hobject (by simp))

/-- A field is found under one of its two names, or missing. -/
theorem each_fieldOr {Q : List Step → Reason → Prop} {missing : Fit α} {wire other : String}
    {fields : Entries Value}
    (hmissing : fields.get? wire = none → missing.Each Q)
    (hfield : ∀ name v, name = wire ∨ name = other → fields.get? name = some v →
      ∀ place reason, P v place reason → Q (.field name :: place) reason) :
    (fieldOr missing wire other part fields).Each Q := by
  unfold fieldOr
  cases hwire : fields.get? wire with
  | some v => exact (hpart v).within (hfield wire v (.inl rfl) hwire)
  | none =>
    cases hother : fields.get? other with
    | some v => exact (hpart v).within (hfield other v (.inr rfl) hother)
    | none => exact hmissing hwire

end Parts

theorem each_record {parts : Entries Value → Fit α} {Q : List Step → Reason → Prop} {name : String}
    {v : Value} (hobject : (∀ fields, v ≠ .object fields) → Q [] (.notRecord name))
    (hparts : ∀ fields, v = .object fields → (parts fields).Each Q) :
    (record name parts v).Each Q := by
  cases v with
  | object fields => exact hparts fields rfl
  | _ => exact .refuse (hobject (by simp))

end Schema

end Workgraph
