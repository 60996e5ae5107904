import Workgraph.Calendar.Interchange
import Workgraph.History.History
import Workgraph.Number.Word
import Workgraph.Schema.Part
import Workgraph.Surroundings
/-!
# The fields of run records

A run record from its fields, and the recording of a run whose parts have not been checked yet.
-/

namespace Workgraph

namespace RunRecord

open Schema Calendar

/-- A moment: a text, or a number of seconds or milliseconds since 1970. -/
def momentPart (v : Value) : Fit Moment :=
  let fit (words : String) : Except InterchangeFault Moment → Fit Moment
    | .ok m => .fits m
    | .error f => .refuse (.notMoment (words ++ ", " ++ f.words))
  match v with
  | .text s => fit " or date" (readInterchange s)
  | .int n => fit "" (ofCount n 0)
  | .real x => fit "" (ofRealCount x)
  | _ => .refuse (.notMoment "")

/-- The status of a run. -/
def statusPart : Value → Fit RunStatus := among ["completed", "failed"] RunStatus.ofName?

/-- A run record from its fields, with given parts for its times. -/
def ofParts (started completed : Entries Value → Fit Moment)
    (duration : Entries Value → Fit Binary64) (fields : Entries Value) : Fit RunRecord :=
  RunRecord.mk
    <$> requiredField "id" "id" text fields
    <*> requiredField "status" "status" statusPart fields
    <*> started fields
    <*> completed fields
    <*> duration fields
    <*> requiredField "node_count" "node_count" integer fields
    <*> optionalField [] "initial_context" "initial_context" (dictionary any) fields
    <*> nullableField "final_context" "final_context" (dictionary any) fields
    <*> optionalField [] "execution_log" "execution_log" (list (dictionary any)) fields
    <*> nullableField "error" "error" text fields
    <*> nullableField "error_type" "error_type" text fields

/-- A run record from its fields. -/
def ofFields (fields : Entries Value) : Fit RunRecord :=
  ofParts (requiredField "started_at" "started_at" momentPart)
    (requiredField "completed_at" "completed_at" momentPart)
    (requiredField "duration_ms" "duration_ms" real) fields

end RunRecord

/-- A run that is to be recorded. -/
structure RunDraft where
  startedAt : Calendar.Moment
  completedAt : Calendar.Moment
  nodeCount : Value
  initialContext : Value
  finalContext : Value
  executionLog : Value
  /-- How the run failed: the name and the words of the failure. -/
  failure : Option (String × String)

namespace RunDraft

/-- The record of a run under an id. -/
def toRecord (d : RunDraft) (id : String) : Except Defect RunRecord := do
  let duration ← elapsedMilliseconds d.startedAt d.completedAt
  let status := if d.failure.isSome then RunStatus.failed else .completed
  let ofText (t : Option String) : Value := (t.map Value.text).getD .null
  let fields : Entries Value :=
    [("id", .text id), ("status", .text status.name), ("node_count", d.nodeCount),
      ("initial_context", d.initialContext), ("final_context", d.finalContext),
      ("execution_log", d.executionLog), ("error", ofText (d.failure.map Prod.snd)),
      ("error_type", ofText (d.failure.map Prod.fst))]
  match RunRecord.ofParts (fun _ => .fits d.startedAt) (fun _ => .fits d.completedAt)
      (fun _ => .fits duration) fields with
  | .misfits found => throw (.misfit (found.map Schema.Misfit.line))
  | .fits r => return r

end RunDraft

namespace History

/-- Records a run that draws the given number from the supply of ids. -/
def record (env : Surroundings) (n : Nat) (d : RunDraft) (h : History) :
    Except Defect (RunRecord × History) := do
  let r ← d.toRecord (env.runId n)
  return (r, ← h.insert r)

/-- The latest runs, at most so many. The limit is stored like any number. -/
def listUpTo (h : History) (limit : Int) : Except Defect (List RunRecord) :=
  if isWord limit then .ok (h.list limit) else .error .storedInteger

end History

end Workgraph
