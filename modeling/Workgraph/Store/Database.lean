import Workgraph.Fault
import Workgraph.Store.Record
import Workgraph.Value.Document
/-!
# The database

Registered entities and their records. A record is kept as a document in a row of a table. The rows
are numbered: a new row is numbered one above the last, so the numbers of rows that have been removed
from the end are used again. The database refuses a record whose entity is not registered or whose id
the entity already has.
-/

namespace Workgraph

/-- A row of the table of records. -/
structure RecordRow where
  number : Nat
  entity : String
  id : String
  /-- The record as JSON. -/
  document : String

namespace RecordRow

/-- The record of a row. -/
def data (row : RecordRow) : Record := Json.documentFields row.document

/-- Whether a row has an entity and an id. -/
def is (row : RecordRow) (entity id : String) : Bool := row.entity = entity && row.id = id

end RecordRow

/-- The registered entities and the rows of their records in the order of their numbers. -/
structure Database where
  entities : List String
  rows : List RecordRow
  ordered : rows.Pairwise fun a b => a.number < b.number

namespace Database

/-- A database without rows. -/
def empty : Database := ⟨[], [], .nil⟩

/-- Registers an entity, unless it is registered. -/
def register (d : Database) (entity : String) : Database :=
  if d.entities.contains entity then d else { d with entities := d.entities ++ [entity] }

/-- Whether an entity is registered. -/
def hasEntity (d : Database) (entity : String) : Bool := d.entities.contains entity

/-- The records of an entity. -/
def records (d : Database) (entity : String) : List Record :=
  (d.rows.filter (·.entity = entity)).map RecordRow.data

/-- The record of an entity with an id. -/
def record? (d : Database) (entity id : String) : Option Record :=
  (d.rows.find? fun row => row.is entity id).map RecordRow.data

/-- The number of a new row. -/
def nextNumber (d : Database) : Nat := (d.rows.getLast?.map RecordRow.number).getD 0 + 1

theorem number_lt_nextNumber (d : Database) {row : RecordRow} (h : row ∈ d.rows) :
    row.number < d.nextNumber := by
  obtain ⟨init, last, hrows⟩ : ∃ init last, d.rows = init ++ [last] :=
    ⟨d.rows.dropLast, d.rows.getLast (List.ne_nil_of_mem h),
      (List.dropLast_concat_getLast (List.ne_nil_of_mem h)).symm⟩
  have hordered := d.ordered
  rw [hrows, List.pairwise_append] at hordered
  have hle : row.number ≤ last.number := by
    rcases List.mem_append.1 (hrows ▸ h) with hinit | hlast
    · exact Nat.le_of_lt (hordered.2.2 row hinit last (List.mem_singleton_self last))
    · exact Nat.le_of_eq (congrArg RecordRow.number (List.mem_singleton.1 hlast))
  simp only [nextNumber, hrows, List.getLast?_concat, Option.map_some, Option.getD_some]
  omega

/-- Adds a row at the end of the table. -/
def addRow (d : Database) (entity id document : String) : Database where
  entities := d.entities
  rows := d.rows ++ [⟨d.nextNumber, entity, id, document⟩]
  ordered := List.pairwise_append.2 ⟨d.ordered, List.pairwise_singleton _ _, fun _ hrow _ hlast =>
    List.mem_singleton.1 hlast ▸ d.number_lt_nextNumber hrow⟩

/-- Adds a record under an id. -/
def insert (d : Database) (entity id : String) (r : Record) : Except Defect Database := do
  let document ← Json.document (.object r)
  if d.rows.any fun row => row.is entity id then throw .duplicateRecord
  else if !d.hasEntity entity then throw .unregisteredEntity
  else return d.addRow entity id document

/-- A row with another document if it has an entity and an id. -/
def rewriteRow (entity id document : String) (row : RecordRow) : RecordRow :=
  if row.is entity id then { row with document } else row

theorem rewriteRow_number (entity id document : String) (row : RecordRow) :
    (rewriteRow entity id document row).number = row.number := by
  unfold rewriteRow
  split <;> rfl

theorem rewriteRow_entity (entity id document : String) (row : RecordRow) :
    (rewriteRow entity id document row).entity = row.entity := by
  unfold rewriteRow
  split <;> rfl

/-- Gives the row with an entity and an id another document. -/
def rewrite (d : Database) (entity id document : String) : Database where
  entities := d.entities
  rows := d.rows.map (rewriteRow entity id document)
  ordered := List.pairwise_map.2 (d.ordered.imp fun hlt => by
    rwa [rewriteRow_number, rewriteRow_number])

/-- Replaces the record of an entity with an id, if there is one. -/
def replace (d : Database) (entity id : String) (r : Record) : Except Defect Database := do
  return d.rewrite entity id (← Json.document (.object r))

/-- Removes the record of an entity with an id, if there is one. -/
def remove (d : Database) (entity id : String) : Database where
  entities := d.entities
  rows := d.rows.filter fun row => !row.is entity id
  ordered := d.ordered.filter _

end Database

end Workgraph
