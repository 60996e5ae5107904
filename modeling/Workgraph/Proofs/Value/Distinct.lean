import Workgraph.Proofs.Entries
import Workgraph.Store.Record
/-!
# Distinct names

Objects in which no name stands twice. Setting, merging and leaving out fields keeps them so, and
with them the making and changing of records (`Record.isDistinct_create`, `Record.isDistinct_change`).
-/

namespace Workgraph

namespace Value

mutual

/-- Whether no object of a value has a name twice. -/
def isDistinct : Value → Bool
  | .list items => areDistinct items
  | .object fields => decide (fields.map Prod.fst).Nodup && haveDistinct fields
  | _ => true

/-- Whether no object of the items has a name twice. -/
def areDistinct : List Value → Bool
  | [] => true
  | v :: rest => isDistinct v && areDistinct rest

/-- Whether no object within the fields has a name twice. -/
def haveDistinct : List (String × Value) → Bool
  | [] => true
  | (_, v) :: rest => isDistinct v && haveDistinct rest

end

theorem areDistinct_iff {items : List Value} :
    areDistinct items = true ↔ ∀ v ∈ items, v.isDistinct = true := by
  induction items with
  | nil => simp [areDistinct]
  | cons v rest ih => rw [areDistinct, Bool.and_eq_true, ih, List.forall_mem_cons]

theorem haveDistinct_iff {fields : List (String × Value)} :
    haveDistinct fields = true ↔ ∀ e ∈ fields, e.2.isDistinct = true := by
  induction fields with
  | nil => simp [haveDistinct]
  | cons e rest ih =>
    obtain ⟨k, v⟩ := e
    rw [haveDistinct, Bool.and_eq_true, ih, List.forall_mem_cons]

/-- An object has distinct names if its own are distinct, and those within each field. -/
theorem isDistinct_object_iff {fields : Entries Value} : (object fields).isDistinct = true ↔
    (fields.map Prod.fst).Nodup ∧ ∀ e ∈ fields, e.2.isDistinct = true := by
  rw [isDistinct, Bool.and_eq_true, decide_eq_true_iff, haveDistinct_iff]

variable {fields other : Entries Value}

theorem isDistinct_set (h : (object fields).isDistinct = true) (name : String) {v : Value}
    (hv : v.isDistinct = true) : (object (fields.set name v)).isDistinct = true := by
  obtain ⟨hnames, hfields⟩ := isDistinct_object_iff.1 h
  refine isDistinct_object_iff.2 ⟨Entries.nodup_set hnames name v, ?_⟩
  intro e he
  rcases Entries.mem_set he with rfl | hold
  · exact hv
  · exact hfields e hold

theorem isDistinct_merge (h : (object fields).isDistinct = true)
    (hother : ∀ e ∈ other, e.2.isDistinct = true) :
    (object (fields.merge other)).isDistinct = true := by
  induction other generalizing fields with
  | nil => exact h
  | cons e rest ih =>
    obtain ⟨hfirst, hrest⟩ := List.forall_mem_cons.1 hother
    exact ih (isDistinct_set h e.1 hfirst) hrest

end Value

namespace Record

variable {data : Entries Value}

theorem isDistinct_create (h : (Value.object data).isDistinct = true) (id stamp : String) :
    (Value.object (create id stamp data)).isDistinct = true := by
  have hstart : (Value.object [("id", .text id), ("created_date", .text stamp)]).isDistinct = true :=
    rfl
  exact Value.isDistinct_set (Value.isDistinct_merge hstart (Value.isDistinct_object_iff.1 h).2) "id"
    rfl

theorem isDistinct_change {r : Record} (hr : (Value.object r).isDistinct = true)
    (h : (Value.object data).isDistinct = true) (stamp : String) :
    (Value.object (r.change stamp data)).isDistinct = true := by
  have hdata : ∀ e ∈ data.without "id", e.2.isDistinct = true := fun e he =>
    (Value.isDistinct_object_iff.1 h).2 e (List.mem_filter.1 he).1
  exact Value.isDistinct_set (Value.isDistinct_merge hr hdata) "updated_date" rfl

end Record

end Workgraph
