import Workgraph.Calendar.Iso
import Workgraph.History.Schema
import Workgraph.Value.Json
/-!
# Rows of runs

The form in which a run record is kept in a database: one column for each of its fields. Moments are
kept by their full text, variables and traces as documents. A document that is missing or empty stands
for no variables, for no variables at the end, or for a trace without entries.
-/

namespace Workgraph

/-- A row of the table of runs. Texts that may be missing are null then. -/
structure RunRow where
  id : String
  status : String
  startedAt : String
  completedAt : String
  duration : Binary64
  nodeCount : Int
  initialContext : Option String
  finalContext : Option String
  executionLog : Option String
  error : Option String
  errorType : Option String

/-- The row of a run record. -/
def RunRecord.row (r : RunRecord) : RunRow where
  id := r.id
  status := r.status.name
  startedAt := r.startedAt.isoText
  completedAt := r.completedAt.isoText
  duration := r.duration
  nodeCount := r.nodeCount
  initialContext := some (Json.write Json.spaced (.object r.initialContext))
  finalContext := r.finalContext.map fun fields => Json.write Json.spaced (.object fields)
  executionLog := some (Json.write Json.spaced (.list (r.executionLog.map Value.object)))
  error := r.error
  errorType := r.errorType

namespace RunRow

/-- The moment of a column. -/
def momentOf (s : String) : Except Defect Calendar.Moment :=
  (Calendar.readMoment s).mapError fun e => .raised "ValueError" e.message

/-- The value of a document, which may be missing or empty. -/
def documentOr (default : Value) (s : Option String) : Except Defect Value :=
  match s with
  | some s =>
    if s = "" then .ok default
    else (Json.read s).mapError fun e => .raised "JSONDecodeError" (e.message s)
  | none => .ok default

/-- The run record of a row. Its parts are checked like those of a new one. -/
def record (row : RunRow) : Except Defect RunRecord := do
  let started ← momentOf row.startedAt
  let completed ← momentOf row.completedAt
  let initial ← documentOr (.object []) row.initialContext
  let final ← documentOr .null row.finalContext
  let log ← documentOr (.list []) row.executionLog
  let ofText (t : Option String) : Value := (t.map Value.text).getD .null
  let fields : Entries Value :=
    [("id", .text row.id), ("status", .text row.status), ("node_count", .int row.nodeCount),
      ("initial_context", initial), ("final_context", final), ("execution_log", log),
      ("error", ofText row.error), ("error_type", ofText row.errorType)]
  match RunRecord.ofParts (fun _ => .fits started) (fun _ => .fits completed)
      (fun _ => .fits row.duration) fields with
  | .misfits found => throw (.misfit (found.map Schema.Misfit.line))
  | .fits r => return r

end RunRow

end Workgraph
