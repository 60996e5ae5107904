import Workgraph.History.Table
import Workgraph.Site.Site
/-!
# Texts of archives

The text by which a database is kept in a file: its entities, the rows of its records, and the rows
of its runs.
-/

namespace Workgraph

/-- A row of a record as a value. -/
def RecordRow.toValue (row : RecordRow) : Value :=
  .list [.int row.number, .text row.entity, .text row.id, .text row.document]

/-- The row of a record that a value holds. -/
def RecordRow.ofValue? : Value → Option RecordRow
  | .list [.int number, .text entity, .text id, .text document] =>
    some ⟨number.toNat, entity, id, document⟩
  | _ => none

/-- The database of entities and rows, if the rows are in the order of their numbers. -/
def Database.ofRows? (entities : List String) (rows : List RecordRow) : Option Database :=
  if ordered : rows.Pairwise fun a b => a.number < b.number then some ⟨entities, rows, ordered⟩
  else none

namespace Archive

/-- An archive as a value. -/
def toValue (a : Archive) : Value :=
  .object [("entities", .list (a.database.entities.map Value.text)),
    ("records", .list (a.database.rows.map RecordRow.toValue)),
    ("runs", a.history.table.toValue)]

/-- The text of a value that is one. -/
def text? : Value → Option String
  | .text s => some s
  | _ => none

/-- The archive that a value holds. -/
def ofValue? : Value → Option Archive
  | .object [("entities", .list entities), ("records", .list records), ("runs", runs)] => do
    let database ← Database.ofRows? (← entities.mapM text?) (← records.mapM RecordRow.ofValue?)
    let table ← RunTable.ofValue? runs
    return ⟨database, ⟨← (table.rows.mapM RunRow.record).toOption⟩⟩
  | _ => none

/-- The text of an archive. -/
def text (a : Archive) : String := Json.write Json.compact a.toValue

/-- The archive that a text spells. -/
def ofText? (s : String) : Option Archive := (Json.read s).toOption.bind ofValue?

end Archive

end Workgraph
