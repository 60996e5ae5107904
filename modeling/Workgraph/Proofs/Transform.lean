import Workgraph.Transform
import Workgraph.Proofs.Arithmetic.Failing
/-!
# How transforms fail

Arithmetic and the other transforms fail with faults of expressions and of transforms, or with
defects of single operations, and with nothing else (`pipeline_fails`).
-/

namespace Workgraph

/-- Whether a fault is one to which an operation on values can come. -/
def Fault.isOfValues : Fault → Bool
  | .expression .. | .transform .. | .defect _ => true
  | _ => false

/-- An operation fails with a fault of values, if at all. -/
def FailsByValues {α : Type} (result : Except Fault α) : Prop :=
  ∀ f, result = .error f → f.isOfValues = true

namespace FailsByValues

variable {α β : Type}

theorem ok (a : α) : FailsByValues (.ok a) := by
  intro f hf
  cases hf

theorem error {f : Fault} (h : f.isOfValues = true) : FailsByValues (.error f : Except Fault α) := by
  intro g hg
  cases hg
  exact h

theorem bind {r : Except Fault α} {k : α → Except Fault β} (h : FailsByValues r)
    (hk : ∀ a, FailsByValues (k a)) : FailsByValues (r >>= k) := by
  cases r with
  | ok a => exact hk a
  | error f => exact error (h f rfl)

theorem map {r : Except Fault α} (h : FailsByValues r) (k : α → β) :
    FailsByValues (r.map k) := by
  cases r with
  | ok a => exact ok _
  | error f => exact error (h f rfl)

theorem lift (r : Except Defect α) : FailsByValues (liftDefect r) := by
  cases r with
  | ok a => exact ok a
  | error d => exact error rfl

end FailsByValues

/-! ## Arithmetic -/

theorem Arithmetic.evaluate_fails (text : String) (resolve : String → Except Defect Value) :
    FailsByValues (Arithmetic.evaluate text resolve) := by
  intro f hf
  rcases Arithmetic.evaluate_failsBy text resolve f hf with ⟨words, behind, rfl⟩ | ⟨d, rfl, -⟩
  · rfl
  · rfl

/-! ## Transforms -/

namespace Transform

theorem refuse_fails {α : Type} (t : Transform) (reason : String) (behind : Option String) :
    FailsByValues (t.refuse reason behind : Except Fault α) := .error rfl

theorem partsOf_fails (v : Value) : FailsByValues (partsOf v) := by
  unfold partsOf
  split
  · exact .ok _
  · exact .ok _
  · exact .ok _
  · exact .error rfl

theorem extractFrom_fails (text : String) (params : Entries Value) :
    FailsByValues (extractFrom text params) := by
  unfold extractFrom
  split
  · split
    · split <;> exact .ok _
    · exact refuse_fails _ _ _
    · exact .error rfl
    · exact .error rfl
    · exact .error rfl
  · exact .error rfl
  · exact .error rfl
  · exact .error rfl

theorem placesOf_fails (params : Entries Value) : FailsByValues (placesOf params) := by
  have hrefused : ∀ (long : Bool) (reason : String) (behind : Option String), FailsByValues
      (if long then .error (.defect .longInteger) else round.refuse reason behind :
        Except Fault Int) := by
    intro long reason behind
    split
    · exact .error rfl
    · exact refuse_fails _ _ _
  unfold placesOf
  simp only
  split
  · exact .ok _
  · exact .ok _
  · split
    · exact .ok _
    · split
      · exact hrefused _ _ _
      · exact .error rfl
  · split
    · exact .ok _
    · exact hrefused _ _ _
  · exact hrefused _ _ _

theorem roundedTo_fails (exponent : Int) (n : Number) : FailsByValues (roundedTo exponent n) := by
  unfold roundedTo
  dsimp only
  -- Each way to round either refuses or comes to a number.
  repeat' split
  all_goals
    first
    | exact refuse_fails _ _ _
    | exact .ok _

theorem roundOf_fails (v : Value) (params : Entries Value) : FailsByValues (roundOf v params) := by
  unfold roundOf
  split
  · split
    · exact .error rfl
    · exact refuse_fails _ _ _
  · refine (placesOf_fails params).bind fun places => ?_
    split
    · exact .error rfl
    · split
      · exact roundedTo_fails _ _
      · exact refuse_fails _ _ _
      · exact .error rfl

theorem apply_fails (t : Transform) (params : Entries Value) (context : Context) (v : Value) :
    FailsByValues (t.apply params context v) := by
  cases t with
  | formatDate =>
    simp only [apply, formatDateOf]
    split
    · exact .ok _
    · exact refuse_fails _ _ _
  | calculate =>
    simp only [apply, calculateOf]
    split
    · exact (Arithmetic.evaluate_fails _ _).map _
    · exact .error rfl
  | concatenate =>
    simp only [apply, concatenateOf]
    refine FailsByValues.bind (.lift _) fun separator => ?_
    refine FailsByValues.bind (partsOf_fails _) fun parts => ?_
    exact FailsByValues.bind (.lift _) fun texts => .ok _
  | extract => exact FailsByValues.bind (.lift _) fun text => extractFrom_fails text params
  | uppercase => exact .map (.lift _) _
  | lowercase => exact .map (.lift _) _
  | trim => exact .map (.lift _) _
  | round => exact roundOf_fails v params

end Transform

/-- **A pipeline fails with faults of values only.** -/
theorem pipeline_fails (steps : List TransformStep) (context : Context) (v : Value) :
    FailsByValues (pipeline steps context v) := by
  unfold pipeline
  induction steps generalizing v with
  | nil => exact .ok _
  | cons step rest ih =>
    rw [List.foldlM_cons]
    refine FailsByValues.bind ?_ ih
    unfold Transform.applyNamed
    split
    · exact Transform.apply_fails _ _ _ _
    · exact .ok _

end Workgraph
