import Workgraph.Display.Markup
import Workgraph.Graph.Reference
import Workgraph.History.RunRecord
import Workgraph.Number.Places
import Workgraph.Value.Document
import Workgraph.Value.Literal
/-!
# Tables

The trace of a run and the history of runs as tables of marked-up cells.
-/

namespace Workgraph

/-- A table with a title, headers and rows of cells. -/
structure Table where
  title : String
  columns : List String
  rows : List (List String)
deriving DecidableEq, Repr

namespace Table

/-- The status of a visit. -/
def visitStatus (failed : Bool) : String :=
  if failed then Markup.styled "red" "✗ Failed" else Markup.styled "green" "✓"

/-- The text of a field of a visit, empty if there is none. -/
def fieldText (entry : Entries Value) (name : String) : Except Defect String :=
  match entry.get? name with
  | some v => if v.hasLongInteger then .error .longInteger else .ok v.shown
  | none => .ok ""

/-- The name to show for the node of a visit, which must be a text. -/
def visitLabel (g : Option Graph) (entry : Entries Value) : Except Defect String :=
  match (entry.get? "nodeId").getD (.text ""), g with
  | .text id, _ => .ok (((g.bind fun g => g.find? id).map Node.label).getD id)
  | v@(.list _), some _ | v@(.object _), some _ => .error (.unhashable v.kind)
  | v, _ => .error (.textNeeded v.kind)

/-- The rows of the visits of a trace from a number on. The last one is marked if the run failed. -/
def visitRows (g : Option Graph) (failed : Bool) (number : Nat) :
    List (Entries Value) → Except Defect (List (List String))
  | [] => .ok []
  | entry :: rest => do
    let label ← visitLabel g entry
    let typeText ← fieldText entry "type"
    let timeText ← fieldText entry "timestamp"
    let row := [digitsText number, Markup.escape label, Markup.escape typeText,
      Markup.escape timeText, visitStatus (failed && rest.isEmpty)]
    return row :: (← visitRows g failed (number + 1) rest)

/-- The trace of a run, one row for each visit. -/
def ofTrace (trace : List (Entries Value)) (g : Option Graph) (title : String) (failed : Bool) :
    Except Defect Table := do
  return ⟨Markup.escape title, ["#", "Node", "Type", "Timestamp", "Status"],
    ← visitRows g failed 1 trace⟩

/-- The usual title of a trace. -/
def traceTitle : String := "Execution trace"

/-- A number of milliseconds without places, halves to even. -/
def millisecondsText : Binary64 → String
  | .nan => "nanms"
  | .infinite negative => (if negative then "-" else "") ++ "infms"
  | x@(.finite negative _ _) =>
    (if negative then "-" else "") ++ digitsText (x.roundEven?.getD 0).natAbs ++ "ms"

/-- The most characters of an error that are shown. -/
def maxErrorLength : Nat := 40

/-- An error as a cell, cut if it is too long. -/
def errorCell (error : Option String) : String :=
  let cell := Markup.escape (error.getD "")
  if cell.length > maxErrorLength then
    String.ofList (cell.toList.take (maxErrorLength - 3)) ++ "..."
  else cell

/-- The row of a run. -/
def runRow (r : RunRecord) : List String :=
  [Markup.escape r.id,
    match r.status with
    | .completed => Markup.styled "green" "✓ completed"
    | .failed => Markup.styled "red" "✗ failed",
    r.startedAt.shortText, millisecondsText r.duration, digitsText r.executionLog.length,
    errorCell r.error]

/-- The history of runs. -/
def ofRuns (runs : List RunRecord) : Table :=
  ⟨"Workflow runs", ["Run", "Status", "Started", "Duration", "Steps", "Error"], runs.map runRow⟩

end Table

end Workgraph
