import Workgraph.Graph.Schema
/-!
# A value that does not fit is refused for a reason

Reading a declared type either gives a value or finds at least one misfit. The property is kept by
every way of putting parts together, so it holds of the nodes of a workflow
(`Node.reasoned_ofValue`, `reasoned_nodesOf`).
-/

namespace Workgraph

namespace Schema

variable {α β : Type}

/-- The value fits, or there is a misfit. -/
def Fit.Reasoned (a : Fit α) : Prop := ∀ found, a = .misfits found → found ≠ []

namespace Fit

theorem Reasoned.fits (x : α) : (Fit.fits x).Reasoned := by
  intro found h
  cases h

theorem Reasoned.refuse (reason : Reason) : (Fit.refuse reason : Fit α).Reasoned := by
  rintro found ⟨⟩
  simp

theorem Reasoned.ofOption (reason : Reason) (a : Option α) : (Fit.ofOption reason a).Reasoned := by
  cases a with
  | some x => exact .fits x
  | none => exact .refuse reason

theorem Reasoned.map {a : Fit α} (h : a.Reasoned) (f : α → β) : (f <$> a).Reasoned := by
  cases a with
  | fits x => exact .fits (f x)
  | misfits found =>
    rintro found' ⟨⟩
    exact h found rfl

theorem Reasoned.seq {f : Fit (α → β)} {a : Fit α} (hf : f.Reasoned) (ha : a.Reasoned) :
    (f <*> a).Reasoned := by
  cases f with
  | fits g =>
    cases a with
    | fits x => exact .fits (g x)
    | misfits found =>
      rintro found' ⟨⟩
      exact ha found rfl
  | misfits found =>
    have hfound := hf found rfl
    cases a with
    | fits x =>
      rintro found' ⟨⟩
      exact hfound
    | misfits more =>
      rintro found' ⟨⟩
      exact List.append_ne_nil_of_left_ne_nil hfound more

theorem Reasoned.within {a : Fit α} (h : a.Reasoned) (step : Step) :
    (a.within step).Reasoned := by
  cases a with
  | fits x => exact .fits x
  | misfits found =>
    rintro found' ⟨⟩
    simpa using h found rfl

theorem Reasoned.check {a : Fit α} (h : a.Reasoned) {next : α → Fit β}
    (hnext : ∀ x, (next x).Reasoned) : (a.check next).Reasoned := by
  cases a with
  | fits x => exact hnext x
  | misfits found =>
    rintro found' ⟨⟩
    exact h found rfl

theorem Reasoned.ite {p : Prop} [Decidable p] {a b : Fit α} (ha : a.Reasoned) (hb : b.Reasoned) :
    (if p then a else b).Reasoned := by
  split
  · exact ha
  · exact hb

end Fit

open Fit

/-! ## Declared types -/

theorem reasoned_text (v : Value) : (text v).Reasoned := by
  cases v <;> first | exact .fits _ | exact .refuse _

theorem reasoned_someText (v : Value) : (someText v).Reasoned :=
  (reasoned_text v).check fun _ => .ite (.refuse _) (.fits _)

theorem reasoned_any (v : Value) : (any v).Reasoned := .fits v

theorem reasoned_integer (v : Value) : (integer v).Reasoned := by
  unfold integer
  split
  · exact .fits _
  · exact .fits _
  · split
    · exact .refuse _
    · exact .ite (.refuse _) (.ite (.fits _) (.refuse _))
  · refine .ite (.refuse _) ?_
    split
    · exact .fits _
    · exact .refuse _
  · exact .refuse _

theorem reasoned_integerFrom (bound : Nat) (v : Value) : (integerFrom bound v).Reasoned := by
  refine (reasoned_integer v).check fun n => ?_
  split
  · exact .refuse _
  · exact .fits _

theorem reasoned_real (v : Value) : (real v).Reasoned := by
  cases v with
  | bool b => exact .fits _
  | int n => exact Reasoned.ofOption .notNumber (Binary64.ofInt? n)
  | real x => exact .fits x
  | text s => exact Reasoned.ofOption .numberText (realText? s)
  | _ => exact .refuse _

theorem reasoned_realFrom (bound : Nat) (v : Value) : (realFrom bound v).Reasoned := by
  refine (reasoned_real v).check fun x => ?_
  split
  · exact .fits _
  · exact .refuse _

theorem reasoned_among (names : List String) (ofName? : String → Option α) (v : Value) :
    (among names ofName? v).Reasoned := by
  unfold among
  simp only
  split
  · exact .fits _
  · exact .refuse _

section Parts

variable {part : Value → Fit α} (hpart : ∀ v, (part v).Reasoned)
include hpart

theorem reasoned_nullable (v : Value) : (nullable part v).Reasoned := by
  unfold nullable
  split
  · exact .fits _
  · exact (hpart v).map some

theorem reasoned_itemsFrom (items : List Value) :
    ∀ index, (itemsFrom part index items).Reasoned := by
  induction items with
  | nil => exact fun _ => .fits _
  | cons v rest ih => exact fun index => (((hpart v).within _).map _).seq (ih (index + 1))

theorem reasoned_list (v : Value) : (list part v).Reasoned := by
  unfold list
  split
  · exact reasoned_itemsFrom hpart _ 0
  · exact .refuse _

theorem reasoned_entriesOf (fields : Entries Value) : (entriesOf part fields).Reasoned := by
  induction fields with
  | nil => exact .fits _
  | cons e rest ih => exact ((((hpart e.2).within _).map _).map _).seq ih

theorem reasoned_dictionary (v : Value) : (dictionary part v).Reasoned := by
  unfold dictionary
  split
  · exact reasoned_entriesOf hpart _
  · exact .refuse _

theorem reasoned_fieldOr {missing : Fit α} (hmissing : missing.Reasoned) {wire other : String}
    {fields : Entries Value} : (fieldOr missing wire other part fields).Reasoned := by
  unfold fieldOr
  split
  · exact (hpart _).within _
  · exact (hpart _).within _
  · exact hmissing

theorem reasoned_optionalField {default : α} {wire other : String} {fields : Entries Value} :
    (optionalField default wire other part fields).Reasoned :=
  reasoned_fieldOr hpart (.fits default)

theorem reasoned_requiredField {wire other : String} {fields : Entries Value} :
    (requiredField wire other part fields).Reasoned :=
  reasoned_fieldOr hpart ((Reasoned.refuse _).within _)

theorem reasoned_nullableField {wire other : String} {fields : Entries Value} :
    (nullableField wire other part fields).Reasoned :=
  reasoned_optionalField (reasoned_nullable hpart)

end Parts

theorem reasoned_record {parts : Entries Value → Fit α} (hparts : ∀ fields, (parts fields).Reasoned)
    (name : String) (v : Value) : (record name parts v).Reasoned := by
  unfold record
  split
  · exact hparts _
  · exact .refuse _

end Schema

open Schema

/-! ## Nodes -/

theorem Condition.reasoned_ofFields (fields : Entries Value) :
    (Condition.ofFields fields).Reasoned :=
  ((((reasoned_nullableField reasoned_text).map _).seq
    (reasoned_nullableField (reasoned_among _ _))).seq
      (reasoned_optionalField reasoned_any)).seq (reasoned_nullableField reasoned_text)

theorem reasoned_conditionList (v : Value) : (conditionList v).Reasoned :=
  reasoned_list (reasoned_record Condition.reasoned_ofFields _) v

theorem reasoned_pathNode (fields : Entries Value) : (pathNode fields).Reasoned :=
  reasoned_nullableField reasoned_text

theorem TransformStep.reasoned_ofFields (fields : Entries Value) :
    (TransformStep.ofFields fields).Reasoned :=
  ((reasoned_requiredField reasoned_text).map _).seq
    (reasoned_optionalField (reasoned_dictionary reasoned_any))

namespace Task

theorem reasoned_apiCallOfFields (fields : Entries Value) : (apiCallOfFields fields).Reasoned :=
  (((((reasoned_optionalField reasoned_text).map _).seq
    (reasoned_requiredField reasoned_someText)).seq
      (reasoned_optionalField (reasoned_dictionary reasoned_text))).seq
        (reasoned_optionalField reasoned_any)).seq (reasoned_nullableField reasoned_text)

theorem reasoned_databaseQueryOfFields (fields : Entries Value) :
    (databaseQueryOfFields fields).Reasoned :=
  (((((reasoned_requiredField reasoned_someText).map _).seq
    (reasoned_nullableField (reasoned_among _ _))).seq
      (reasoned_nullableField (reasoned_dictionary reasoned_any))).seq
        (reasoned_nullableField (reasoned_dictionary reasoned_any))).seq
          (reasoned_nullableField reasoned_text)

theorem reasoned_ofFields (type : String) (fields : Entries Value) :
    (Task.ofFields type fields).Reasoned := by
  unfold Task.ofFields
  split
  · exact .fits _
  · exact ((reasoned_optionalField reasoned_conditionList).map _).seq
      (reasoned_nullableField reasoned_text)
  · exact ((((reasoned_nullableField reasoned_text).map _).seq
      (reasoned_nullableField reasoned_text)).seq (reasoned_nullableField reasoned_text)).seq
        (reasoned_nullableField (reasoned_integerFrom 0))
  · exact (reasoned_optionalField (reasoned_list (reasoned_record reasoned_pathNode _))).map _
  · exact reasoned_apiCallOfFields fields
  · exact reasoned_databaseQueryOfFields fields
  · exact (((reasoned_nullableField reasoned_text).map _).seq
      (reasoned_optionalField
        (reasoned_list (reasoned_record TransformStep.reasoned_ofFields _)))).seq
          (reasoned_nullableField reasoned_text)
  · exact (((reasoned_nullableField reasoned_text).map _).seq
      (reasoned_optionalField reasoned_conditionList)).seq
        (reasoned_nullableField reasoned_text)
  · exact ((reasoned_optionalField (fun v => (reasoned_realFrom 0 v).map some)).map _).seq
      (reasoned_optionalField (reasoned_among _ _))
  · exact .fits _

end Task

namespace Behaviour

theorem reasoned_ofConfig (type : String) (fields : Entries Value) :
    (Behaviour.ofConfig type fields).Reasoned :=
  ((reasoned_nullableField reasoned_text).map _).seq (Task.reasoned_ofFields type fields)

theorem reasoned_knownOfFields (type : String) (fields : Entries Value) :
    (Behaviour.knownOfFields type fields).Reasoned := by
  have hconfig := reasoned_record (reasoned_ofConfig type) (Task.configName type)
  exact .ite (reasoned_requiredField hconfig)
    (reasoned_fieldOr hconfig (reasoned_ofConfig type []))

theorem reasoned_unknownOfFields (fields : Entries Value) :
    (Behaviour.unknownOfFields fields).Reasoned :=
  ((reasoned_requiredField reasoned_text).map _).seq
    (reasoned_optionalField (reasoned_dictionary reasoned_any))

end Behaviour

namespace Node

theorem reasoned_ofFields (known : Option String) (fields : Entries Value) :
    (Node.ofFields known fields).Reasoned := by
  refine (((reasoned_requiredField reasoned_someText).map _).seq
    (reasoned_nullableField reasoned_text)).seq ?_
  cases known with
  | some type => exact Behaviour.reasoned_knownOfFields type fields
  | none => exact Behaviour.reasoned_unknownOfFields fields

/-- A value that does not fit as a node has a misfit. -/
theorem reasoned_ofValue {v : Value} {fit : Fit Node} (h : Node.ofValue v = .ok fit) :
    fit.Reasoned := by
  unfold Node.ofValue at h
  cases hk : Node.knownType v with
  | error d => rw [hk] at h; cases h
  | ok known =>
    rw [hk] at h
    cases h
    exact (reasoned_record (reasoned_ofFields known) _ v).within _

end Node

theorem reasoned_nodesFrom (items : List Value) :
    ∀ (index : Nat) (fit : Fit (List Node)), nodesFrom index items = .ok fit → fit.Reasoned := by
  induction items with
  | nil =>
    intro index fit h
    cases h
    exact .fits []
  | cons v rest ih =>
    intro index fit h
    simp only [nodesFrom] at h
    cases hv : Node.ofValue v with
    | error d => rw [hv] at h; cases h
    | ok first =>
      cases hr : nodesFrom (index + 1) rest with
      | error d => rw [hv, hr] at h; cases h
      | ok others =>
        rw [hv, hr] at h
        cases h
        exact (((Node.reasoned_ofValue hv).within _).map _).seq (ih (index + 1) others hr)

end Workgraph
