import Workgraph.Store.Record
/-!
# Entities in memory

Each entity is a list of records in order of creation. An id that is asked for means the first
record that has it.
-/

namespace Workgraph

/-- The entities of a store in memory. -/
structure Memory where
  entities : Entries (List Record)

namespace Memory

/-- No entities. -/
def empty : Memory := ⟨[]⟩

/-- The records of an entity. -/
def records? (m : Memory) (entity : String) : Option (List Record) := m.entities.get? entity

/-- Replaces the records of an entity. -/
def setRecords (m : Memory) (entity : String) (records : List Record) : Memory :=
  ⟨m.entities.set entity records⟩

/-- Adds a record at the end of an entity. -/
def insert (records : List Record) (r : Record) : List Record := records ++ [r]

/-- The first record with an id. -/
def find? (records : List Record) (id : String) : Option Record := records.find? (·.hasId id)

/-- Replaces the first record with an id. -/
def replaceFirst (id : String) (new : Record) : List Record → List Record
  | [] => []
  | r :: rest => if r.hasId id then new :: rest else r :: replaceFirst id new rest

/-- Removes the first record with an id. -/
def removeFirst (id : String) : List Record → List Record
  | [] => []
  | r :: rest => if r.hasId id then rest else r :: removeFirst id rest

end Memory

end Workgraph
