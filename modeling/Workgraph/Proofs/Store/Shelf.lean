import Workgraph.Proofs.Entries
import Workgraph.Store.Repository
/-!
# The shelf of an entity

What a store holds of a single entity. An operation on an entity looks at its shelf only, and leaves
the shelves of other entities as they are; whatever else the store holds is of no account for it
(`Repository.perform_shelf`, `Repository.perform_other`).
-/

namespace Workgraph

/-- What a store holds of one entity. -/
inductive Shelf where
  /-- The records in memory, if the entity is there. -/
  | memory (records : Option (List Record))
  /-- Whether the entity is registered in the database, and the ids and documents of its rows. How the
  rows are numbered depends on the other entities, so it is left out. -/
  | database (registered : Bool) (rows : List (String × String))

/-- What a shelf shows of a row. -/
def RecordRow.entry (row : RecordRow) : String × String := (row.id, row.document)

/-- The ids and documents of an entity. -/
def Database.entriesOf (d : Database) (entity : String) : List (String × String) :=
  (d.rows.filter (·.entity = entity)).map RecordRow.entry

/-- The shelf of an entity. -/
def Store.shelf (entity : String) : Store → Shelf
  | memory m => .memory (m.records? entity)
  | database d => .database (d.hasEntity entity) (d.entriesOf entity)

namespace Shelf

/-- Whether the entity is there. -/
def hasEntity : Shelf → Bool
  | memory records => records.isSome
  | database registered _ => registered

/-- The records, in order. -/
def records : Shelf → List Record
  | memory records => records.getD []
  | database _ rows => rows.map fun row => Json.documentFields row.2

/-- The record with an id. -/
def record? (id : String) : Shelf → Option Record
  | memory records => Memory.find? (records.getD []) id
  | database _ rows => (rows.find? fun row => row.1 = id).map fun row => Json.documentFields row.2

/-- Adds a record. -/
def insert (r : Record) : Shelf → Except Defect Shelf
  | memory records => .ok (memory (some (Memory.insert (records.getD []) r)))
  | database registered rows => do
    let document ← Json.document (.object r)
    if rows.any fun row => row.1 = r.id.shown then throw .duplicateRecord
    else if !registered then throw .unregisteredEntity
    else return database registered (rows ++ [(r.id.shown, document)])

/-- Replaces the record with an id. -/
def replace (id : String) (r : Record) : Shelf → Except Defect Shelf
  | memory records => .ok (memory (some (Memory.replaceFirst id r (records.getD []))))
  | database registered rows => do
    let document ← Json.document (.object r)
    return database registered (rows.map fun row => if row.1 = id then (row.1, document) else row)

/-- Removes the record with an id. -/
def remove (id : String) : Shelf → Shelf
  | memory records => memory (some (Memory.removeFirst id (records.getD [])))
  | database registered rows => database registered (rows.filter fun row => !decide (row.1 = id))

end Shelf

/-! ## Rows of an entity -/

namespace Database

variable {entity other id document : String} {d : Database}

theorem any_entriesOf (d : Database) (entity id : String) :
    (d.entriesOf entity).any (fun row => row.1 = id) = d.rows.any fun row => row.is entity id := by
  simp only [entriesOf, List.any_map, List.any_filter]
  congr 1

theorem find?_entriesOf (d : Database) (entity id : String) :
    (d.entriesOf entity).find? (fun row => row.1 = id) =
      (d.rows.find? fun row => row.is entity id).map RecordRow.entry := by
  simp only [entriesOf, List.find?_map, List.find?_filter, Bool.decide_and, Bool.decide_eq_true]
  rfl

theorem entriesOf_addRow : (d.addRow entity id document).entriesOf entity =
    d.entriesOf entity ++ [(id, document)] := by
  simp [addRow, entriesOf, RecordRow.entry]

theorem entriesOf_addRow_other (h : other ≠ entity) :
    (d.addRow entity id document).entriesOf other = d.entriesOf other := by
  simp [addRow, entriesOf, h.symm]

/-- A row keeps its entity when it gets another document. -/
theorem filter_rewriteRow (rows : List RecordRow) :
    (rows.map (rewriteRow entity id document)).filter (·.entity = other) =
      (rows.filter (·.entity = other)).map (rewriteRow entity id document) := by
  simp only [List.filter_map, Function.comp_def, rewriteRow_entity]

theorem entriesOf_rewrite : (d.rewrite entity id document).entriesOf entity =
    (d.entriesOf entity).map fun row => if row.1 = id then (row.1, document) else row := by
  simp only [entriesOf, rewrite, filter_rewriteRow, List.map_map]
  apply List.map_congr_left
  intro row hrow
  have hentity : row.entity = entity := of_decide_eq_true (List.mem_filter.1 hrow).2
  by_cases hid : row.id = id
  · simp [rewriteRow, RecordRow.is, RecordRow.entry, hentity, hid]
  · simp [rewriteRow, RecordRow.is, RecordRow.entry, hid]

theorem entriesOf_rewrite_other (h : other ≠ entity) :
    (d.rewrite entity id document).entriesOf other = d.entriesOf other := by
  simp only [entriesOf, rewrite, filter_rewriteRow, List.map_map]
  apply List.map_congr_left
  intro row hrow
  have hother : row.entity = other := of_decide_eq_true (List.mem_filter.1 hrow).2
  simp [rewriteRow, RecordRow.is, hother, h]

theorem entriesOf_remove : (d.remove entity id).entriesOf entity =
    (d.entriesOf entity).filter fun row => !decide (row.1 = id) := by
  simp only [entriesOf, remove, List.filter_map, List.filter_filter]
  -- Among the rows of the entity, those that go are told by their ids alone.
  congr 1
  apply List.filter_congr
  intro row _
  by_cases hentity : row.entity = entity
  · simp only [RecordRow.is, Function.comp_apply, RecordRow.entry, hentity, decide_true,
      Bool.true_and, Bool.and_true]
    rfl
  · simp [RecordRow.is, hentity]

theorem entriesOf_remove_other (h : other ≠ entity) :
    (d.remove entity id).entriesOf other = d.entriesOf other := by
  simp only [entriesOf, remove, List.filter_filter]
  congr 1
  apply List.filter_congr
  intro row _
  by_cases hother : row.entity = other
  · simp [RecordRow.is, hother, h]
  · simp [hother]

end Database

namespace Store

variable {entity other id : String}

theorem hasEntity_shelf (entity : String) (s : Store) :
    s.hasEntity entity = (s.shelf entity).hasEntity := by
  cases s <;> rfl

theorem records_shelf (entity : String) (s : Store) :
    s.records entity = (s.shelf entity).records := by
  cases s with
  | memory m => rfl
  | database d =>
    simp only [records, Database.records, shelf, Shelf.records, Database.entriesOf, List.map_map]
    rfl

theorem record?_shelf (entity id : String) (s : Store) :
    s.record? entity id = (s.shelf entity).record? id := by
  cases s with
  | memory m => rfl
  | database d =>
    simp only [record?, Database.record?, shelf, Shelf.record?, Database.find?_entriesOf,
      Option.map_map]
    rfl

theorem insert_shelf (entity : String) (r : Record) (s : Store) :
    (s.insert entity r).map (shelf entity) = (s.shelf entity).insert r := by
  cases s with
  | memory m =>
    simp only [insert, Except.map, shelf, Shelf.insert, Memory.setRecords, Memory.records?,
      Entries.get?_set_self]
  | database d =>
    simp only [insert, Database.insert, shelf, Shelf.insert, Database.any_entriesOf]
    cases Json.document (.object r) with
    | error defect => rfl
    | ok document =>
      simp only [bind, Except.bind]
      split
      · rfl
      · split
        · rfl
        · exact congrArg (fun rows => Except.ok (Shelf.database _ rows)) Database.entriesOf_addRow

theorem replace_shelf (entity id : String) (r : Record) (s : Store) :
    (s.replace entity id r).map (shelf entity) = (s.shelf entity).replace id r := by
  cases s with
  | memory m =>
    simp only [replace, Except.map, shelf, Shelf.replace, Memory.setRecords, Memory.records?,
      Entries.get?_set_self]
  | database d =>
    simp only [replace, Database.replace, shelf, Shelf.replace]
    cases Json.document (.object r) with
    | error defect => rfl
    | ok document =>
      exact congrArg (fun rows => Except.ok (Shelf.database _ rows)) Database.entriesOf_rewrite

theorem remove_shelf (entity id : String) (s : Store) :
    (s.remove entity id).shelf entity = (s.shelf entity).remove id := by
  cases s with
  | memory m =>
    simp only [remove, shelf, Shelf.remove, Memory.setRecords, Memory.records?,
      Entries.get?_set_self]
  | database d => exact congrArg (Shelf.database _) Database.entriesOf_remove

/-! ## Other entities -/

theorem insert_other (h : other ≠ entity) {r : Record} {s s' : Store}
    (hs : s.insert entity r = .ok s') : s'.shelf other = s.shelf other := by
  cases s with
  | memory m =>
    cases hs
    simp only [shelf, Memory.setRecords, Memory.records?, Entries.get?_set_of_ne h]
  | database d =>
    simp only [insert, Database.insert] at hs
    cases hdocument : Json.document (.object r) with
    | error defect =>
      rw [hdocument] at hs
      cases hs
    | ok document =>
      simp only [hdocument, bind, Except.bind] at hs
      split at hs
      · cases hs
      · split at hs
        · cases hs
        · cases hs
          exact congrArg (Shelf.database _) (Database.entriesOf_addRow_other h)

theorem replace_other (h : other ≠ entity) {id : String} {r : Record} {s s' : Store}
    (hs : s.replace entity id r = .ok s') : s'.shelf other = s.shelf other := by
  cases s with
  | memory m =>
    cases hs
    simp only [shelf, Memory.setRecords, Memory.records?, Entries.get?_set_of_ne h]
  | database d =>
    simp only [replace, Database.replace] at hs
    cases hdocument : Json.document (.object r) with
    | error defect =>
      rw [hdocument] at hs
      cases hs
    | ok document =>
      rw [hdocument] at hs
      cases hs
      exact congrArg (Shelf.database _) (Database.entriesOf_rewrite_other h)

theorem remove_other (h : other ≠ entity) (id : String) (s : Store) :
    (s.remove entity id).shelf other = s.shelf other := by
  cases s with
  | memory m =>
    simp only [remove, shelf, Memory.setRecords, Memory.records?, Entries.get?_set_of_ne h]
  | database d => exact congrArg (Shelf.database _) (Database.entriesOf_remove_other h)

end Store

/-! ## Operations -/

/-- Whether an operation takes no id from the supply, or takes one and does not use it. -/
def StoreAction.bringsId : StoreAction → Bool
  | .create data => data.has "id"
  | _ => true

namespace Shelf

/-- What an operation on an existing entity answers, and the shelf it leaves, when so many ids have
been drawn. -/
def act (env : Surroundings) (drawn : Nat) (h : Shelf) :
    StoreAction → Except Defect Value × Shelf
  | .find => (.ok .null, h)
  | .refuse cause => (.error cause, h)
  | .list => (.ok (.list (h.records.map Value.object)), h)
  | .filter criteria => (.ok (.list ((h.records.filter (·.fulfils criteria)).map Value.object)), h)
  | .create data =>
    match Record.ofData (env.freshId (drawn + 1)) env.stamp data with
    | .error d => (.error d, h)
    | .ok record =>
      match h.insert record with
      | .ok h' => (.ok (.object record), h')
      | .error d => (.error d, h)
  | .update id data =>
    match h.record? id with
    | some old =>
      let new := Record.change old env.stamp data
      match h.replace id new with
      | .ok h' => (.ok (.object new), h')
      | .error d => (.error d, h)
    | none => (.ok .null, h)
  | .delete id =>
    match h.record? id with
    | some old => (.ok (.object old), h.remove id)
    | none => (.ok .null, h)

/-- What an operation on an entity answers, and the shelf it leaves. -/
def perform (env : Surroundings) (entity : String) (drawn : Nat) (action : StoreAction)
    (h : Shelf) : Except Fault Value × Shelf :=
  if h.hasEntity then ((h.act env drawn action).1.mapError .defect, (h.act env drawn action).2)
  else (.error (.entityNotFound entity), h)

/-- How many ids an operation draws. -/
def draws (h : Shelf) : StoreAction → Nat
  | .create _ => if h.hasEntity then 1 else 0
  | _ => 0

theorem ofData_of_has {data : Entries Value} (h : data.has "id" = true) (id id' stamp : String) :
    Record.ofData id stamp data = Record.ofData id' stamp data := by
  have hdraft : Record.draft id stamp data = Record.draft id' stamp data :=
    Entries.merge_cons_of_has h _ (.text id) (.text id')
  rw [Record.ofData, Record.ofData, Record.create, Record.create, hdraft]

/-- An operation that brings its own id does not depend on how many have been drawn. -/
theorem perform_of_bringsId {action : StoreAction} (h : action.bringsId = true)
    (env : Surroundings) (entity : String) (drawn drawn' : Nat) (sh : Shelf) :
    sh.perform env entity drawn action = sh.perform env entity drawn' action := by
  -- Only the creation of a record looks at what has been drawn, and the id in its data wins.
  cases action with
  | create data =>
    have hrecord := ofData_of_has h (env.freshId (drawn + 1)) (env.freshId (drawn' + 1)) env.stamp
    simp only [perform, act, hrecord]
  | _ => rfl

end Shelf

namespace Repository

variable {env : Surroundings} {entity other : String}

theorem act_shelf (env : Surroundings) (entity : String) (r : Repository) (action : StoreAction) :
    (r.act env entity action).1 = ((r.store.shelf entity).act env r.drawn action).1 ∧
      (r.act env entity action).2.store.shelf entity =
        ((r.store.shelf entity).act env r.drawn action).2 := by
  cases action with
  | find => exact ⟨rfl, rfl⟩
  | refuse cause => exact ⟨rfl, rfl⟩
  | list =>
    refine ⟨?_, rfl⟩
    simp only [act, Shelf.act, Store.records_shelf]
  | filter criteria =>
    refine ⟨?_, rfl⟩
    simp only [act, Shelf.act, Store.records_shelf]
  | create data =>
    simp only [act, create, Shelf.act]
    cases Record.ofData (env.freshId (r.drawn + 1)) env.stamp data with
    | error d => exact ⟨rfl, rfl⟩
    | ok record =>
      simp only
      -- The insertion into the shelf is the image of the one into the store, so both have one
      -- outcome.
      rw [← Store.insert_shelf entity record r.store]
      split
      · rename_i store hstore
        rw [hstore]
        exact ⟨rfl, rfl⟩
      · rename_i d hstore
        rw [hstore]
        exact ⟨rfl, rfl⟩
  | update id data =>
    simp only [act, update, Shelf.act, Store.record?_shelf]
    cases (r.store.shelf entity).record? id with
    | some old =>
      simp only
      rw [← Store.replace_shelf]
      split
      · rename_i store hstore
        rw [hstore]
        exact ⟨rfl, rfl⟩
      · rename_i d hstore
        rw [hstore]
        exact ⟨rfl, rfl⟩
    | none => exact ⟨rfl, rfl⟩
  | delete id =>
    simp only [act, delete, Shelf.act, Store.record?_shelf]
    cases (r.store.shelf entity).record? id with
    | some old => exact ⟨rfl, Store.remove_shelf _ _ _⟩
    | none => exact ⟨rfl, rfl⟩

/-- **An operation on an entity looks at its shelf only.** -/
theorem perform_shelf (env : Surroundings) (entity : String) (action : StoreAction)
    (r : Repository) :
    (r.perform env entity action).1 =
        ((r.store.shelf entity).perform env entity r.drawn action).1 ∧
      (r.perform env entity action).2.store.shelf entity =
        ((r.store.shelf entity).perform env entity r.drawn action).2 := by
  obtain ⟨hanswer, hshelf⟩ := act_shelf env entity r action
  unfold perform Shelf.perform
  rw [← Store.hasEntity_shelf]
  by_cases hthere : r.store.hasEntity entity
  · rw [if_pos hthere, if_pos hthere, ← hanswer, ← hshelf]
    rcases r.act env entity action with ⟨v | d, s⟩
    · exact ⟨rfl, rfl⟩
    · exact ⟨rfl, rfl⟩
  · rw [if_neg hthere, if_neg hthere]
    exact ⟨rfl, rfl⟩

theorem act_other (h : other ≠ entity) (env : Surroundings) (r : Repository)
    (action : StoreAction) :
    (r.act env entity action).2.store.shelf other = r.store.shelf other := by
  cases action with
  | create data =>
    simp only [act, create]
    split
    · rfl
    · split
      · rename_i store hstore
        exact Store.insert_other h hstore
      · rfl
  | update id data =>
    simp only [act, update]
    split
    · split
      · rename_i store hstore
        exact Store.replace_other h hstore
      · rfl
    · rfl
  | delete id =>
    simp only [act, delete]
    split
    · exact Store.remove_other h _ _
    · rfl
  | _ => rfl

/-- **An operation on an entity leaves the shelves of others.** -/
theorem perform_other (h : other ≠ entity) (env : Surroundings) (action : StoreAction)
    (r : Repository) :
    (r.perform env entity action).2.store.shelf other = r.store.shelf other := by
  have hact := act_other h env r action
  unfold perform
  split
  · rcases hr : r.act env entity action with ⟨v | d, s⟩
    · rw [hr] at hact
      exact hact
    · rw [hr] at hact
      exact hact
  · rfl

/-- How many ids have been drawn after an operation. -/
theorem perform_drawn (env : Surroundings) (entity : String) (action : StoreAction)
    (r : Repository) : (r.perform env entity action).2.drawn =
      r.drawn + (r.store.shelf entity).draws action := by
  -- Only a creation draws an id, and it does so even if the record is not taken in.
  have hact : (r.act env entity action).2.drawn =
      r.drawn + match action with | .create _ => 1 | _ => 0 := by
    cases action with
    | create data =>
      simp only [act, create]
      split
      · rfl
      · split <;> rfl
    | update id data =>
      simp only [act, update]
      split
      · split <;> rfl
      · rfl
    | delete id =>
      simp only [act, delete]
      split <;> rfl
    | _ => rfl
  unfold perform Shelf.draws
  rw [← Store.hasEntity_shelf]
  by_cases hthere : r.store.hasEntity entity
  · rw [if_pos hthere, if_pos hthere]
    rcases hr : r.act env entity action with ⟨v | d, s⟩
    · rw [hr] at hact
      exact hact
    · rw [hr] at hact
      exact hact
  · rw [if_neg hthere, if_neg hthere]
    cases action <;> rfl

end Repository

end Workgraph
