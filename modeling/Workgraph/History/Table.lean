import Workgraph.History.Row
/-!
# The table of runs

The rows of the recorded runs in the order of their recording, as a database keeps them. A run is
looked up by its id, and runs are listed by the text of the time at which they started, latest first;
of rows with the same text, the one recorded last comes first. The table is kept in a file by its text.
-/

namespace Workgraph

/-- The rows of the recorded runs. -/
structure RunTable where
  rows : List RunRow

namespace RunTable

/-- No rows. -/
def empty : RunTable := ⟨[]⟩

/-- Adds the row of a run. -/
def insert (t : RunTable) (run : RunRecord) : Except Defect RunTable :=
  if run.hasLongInteger then .error .longInteger
  else if !isWord run.nodeCount then .error .storedInteger
  else if t.rows.any fun row => row.id = run.id then .error .duplicateRun
  else .ok ⟨t.rows ++ [run.row]⟩

/-- Records a run that draws the given number from the supply of ids. -/
def record (env : Surroundings) (n : Nat) (d : RunDraft) (t : RunTable) :
    Except Defect (RunRecord × RunTable) := do
  let r ← d.toRecord (env.runId n)
  return (r, ← t.insert r)

/-- The run of an id. -/
def find? (t : RunTable) (id : String) : Except Defect (Option RunRecord) :=
  match t.rows.find? fun row => row.id = id with
  | some row => row.record.map some
  | none => .ok none

/-- All rows, latest first. -/
def latestFirst (t : RunTable) : List RunRow :=
  t.rows.reverse.mergeSort fun a b => !decide (a.startedAt < b.startedAt)

/-- The latest runs, at most so many; all of them if the limit is negative. The limit is stored like
any number. -/
def listUpTo (t : RunTable) (limit : Int) : Except Defect (List RunRecord) :=
  if !isWord limit then .error .storedInteger
  else
    let rows := if limit < 0 then t.latestFirst else t.latestFirst.take limit.toNat
    rows.mapM RunRow.record

end RunTable

/-! ## Files -/

namespace RunRow

/-- A text that may be missing, as a value. -/
def ofText (s : Option String) : Value := (s.map Value.text).getD .null

/-- The text of a value that may be null. -/
def text? : Value → Option (Option String)
  | .null => some none
  | .text s => some (some s)
  | _ => none

/-- A row as a value. -/
def toValue (row : RunRow) : Value :=
  .list [.text row.id, .text row.status, .text row.startedAt, .text row.completedAt,
    .real row.duration, .int row.nodeCount, ofText row.initialContext, ofText row.finalContext,
    ofText row.executionLog, ofText row.error, ofText row.errorType]

/-- The row that a value holds. -/
def ofValue? : Value → Option RunRow
  | .list [.text id, .text status, .text started, .text completed, .real duration, .int nodeCount,
      initial, final, log, error, errorType] => do
    return ⟨id, status, started, completed, duration, nodeCount, ← text? initial, ← text? final,
      ← text? log, ← text? error, ← text? errorType⟩
  | _ => none

end RunRow

namespace RunTable

/-- A table as a value. -/
def toValue (t : RunTable) : Value := .list (t.rows.map RunRow.toValue)

/-- The table that a value holds. -/
def ofValue? : Value → Option RunTable
  | .list items => (items.mapM RunRow.ofValue?).map RunTable.mk
  | _ => none

/-- The text of a table. -/
def text (t : RunTable) : String := Json.write Json.spaced t.toValue

/-- The table that a text spells. -/
def ofText? (s : String) : Option RunTable := (Json.read s).toOption.bind ofValue?

end RunTable

/-- The table of the runs of a history. -/
def History.table (h : History) : RunTable := ⟨h.runs.map RunRecord.row⟩

end Workgraph
