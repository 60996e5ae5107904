import Workgraph.Store.Database
import Workgraph.Store.Memory
import Workgraph.Surroundings
/-!
# Entity stores

The operations on the records of an entity, on either kind of store. Both kinds answer alike, except
that a database refuses a new record with an id that is taken, and a record that it cannot write.
-/

namespace Workgraph

/-- An operation on the records of an entity. -/
inductive StoreAction where
  /-- Only makes sure that the entity exists. -/
  | find
  /-- An operation that comes to nothing for a defect in what it is given. -/
  | refuse (cause : Defect)
  | list
  | filter (criteria : Entries Value)
  | create (data : Entries Value)
  | update (id : String) (data : Entries Value)
  | delete (id : String)

/-- Where entities live: in memory or in a database. -/
inductive Store where
  | memory (m : Memory)
  | database (d : Database)

/-- A store, and how many ids have been drawn from the supply. -/
structure Repository where
  store : Store
  drawn : Nat

namespace Store

/-- Whether the store has an entity. -/
def hasEntity (entity : String) : Store → Bool
  | memory m => (m.records? entity).isSome
  | database d => d.hasEntity entity

/-- The records of an entity, in order of creation. -/
def records (entity : String) : Store → List Record
  | memory m => (m.records? entity).getD []
  | database d => d.records entity

/-- The record of an entity with an id. -/
def record? (entity id : String) : Store → Option Record
  | memory m => Memory.find? ((m.records? entity).getD []) id
  | database d => d.record? entity id

/-- Adds a record to an entity. -/
def insert (entity : String) (r : Record) : Store → Except Defect Store
  | memory m =>
    .ok (memory (m.setRecords entity (Memory.insert ((m.records? entity).getD []) r)))
  | database d => (d.insert entity r.id.shown r).map database

/-- Replaces the record of an entity with an id. -/
def replace (entity id : String) (r : Record) : Store → Except Defect Store
  | memory m =>
    .ok (memory (m.setRecords entity (Memory.replaceFirst id r ((m.records? entity).getD []))))
  | database d => (d.replace entity id r).map database

/-- Removes the record of an entity with an id. -/
def remove (entity id : String) : Store → Store
  | memory m => memory (m.setRecords entity (Memory.removeFirst id ((m.records? entity).getD [])))
  | database d => database (d.remove entity id)

/-- The names of the entities in order. -/
def names : Store → List String
  | memory m => (m.entities.names).mergeSort fun a b => !decide (b < a)
  | database d => d.entities.mergeSort fun a b => !decide (b < a)

end Store

namespace Repository

/-- Adds a new record with data to an entity. It draws an id, used or not. -/
def create (env : Surroundings) (entity : String) (data : Entries Value) (r : Repository) :
    Except Defect Value × Repository :=
  let n := r.drawn + 1
  match Record.ofData (env.freshId n) env.stamp data with
  | .error d => (.error d, { r with drawn := n })
  | .ok record =>
    match r.store.insert entity record with
    | .ok store => (.ok (.object record), ⟨store, n⟩)
    | .error d => (.error d, { r with drawn := n })

/-- Changes the record of an entity with an id. -/
def update (env : Surroundings) (entity id : String) (data : Entries Value) (r : Repository) :
    Except Defect Value × Repository :=
  match r.store.record? entity id with
  | some old =>
    let new := Record.change old env.stamp data
    match r.store.replace entity id new with
    | .ok store => (.ok (.object new), { r with store })
    | .error d => (.error d, r)
  | none => (.ok .null, r)

/-- Removes the record of an entity with an id. -/
def delete (entity id : String) (r : Repository) : Value × Repository :=
  match r.store.record? entity id with
  | some old => (.object old, { r with store := r.store.remove entity id })
  | none => (.null, r)

/-- Performs an operation on an existing entity. -/
def act (env : Surroundings) (entity : String) (r : Repository) :
    StoreAction → Except Defect Value × Repository
  | .find => (.ok .null, r)
  | .refuse cause => (.error cause, r)
  | .list => (.ok (.list ((r.store.records entity).map Value.object)), r)
  | .filter criteria =>
    (.ok (.list (((r.store.records entity).filter (·.fulfils criteria)).map Value.object)), r)
  | .create data => r.create env entity data
  | .update id data => r.update env entity id data
  | .delete id => let (v, s) := r.delete entity id; (.ok v, s)

/-- Performs an operation on an entity, which must exist. -/
def perform (env : Surroundings) (entity : String) (action : StoreAction) (r : Repository) :
    Except Fault Value × Repository :=
  if r.store.hasEntity entity then
    match r.act env entity action with
    | (.ok v, s) => (.ok v, s)
    | (.error d, s) => (.error (.defect d), s)
  else (.error (.entityNotFound entity), r)

/-- New records behind those that have been made, and how many ids have been drawn. The first
record that cannot be made ends it. -/
def fill (env : Surroundings) : List (Entries Value) → List Record → Nat →
    Except Defect (List Record) × Nat
  | [], made, drawn => (.ok made, drawn)
  | data :: rest, made, drawn =>
    match Record.ofData (env.freshId (drawn + 1)) env.stamp data with
    | .ok record => fill env rest (made ++ [record]) (drawn + 1)
    | .error d => (.error d, drawn + 1)

/-- Registers an entity. In memory it starts with the given records, whatever it held before, unless
one of them cannot be made; in a database it keeps what it has. -/
def register (env : Surroundings) (entity : String) (records : List (Entries Value))
    (r : Repository) : Except Defect Unit × Repository :=
  match r.store with
  | .memory m =>
    match fill env records [] r.drawn with
    | (.ok made, drawn) => (.ok (), ⟨.memory (m.setRecords entity made), drawn⟩)
    | (.error d, drawn) => (.error d, { r with drawn })
  | .database d => (.ok (), { r with store := .database (d.register entity) })

/-- A store with entities and their first records. -/
def populate (env : Surroundings) (entities : Entries (List (Entries Value))) (r : Repository) :
    Except Defect Repository :=
  entities.foldlM (fun r e => do
    let (registered, r) := r.register env e.1 e.2
    registered
    match r.store with
    | .memory _ => return r
    | .database _ =>
      e.2.foldlM (fun r data =>
        match r.create env e.1 data with
        | (.ok _, s) => .ok s
        | (.error d, _) => .error d) r) r

end Repository

end Workgraph
