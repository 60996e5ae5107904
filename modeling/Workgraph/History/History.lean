import Workgraph.Fault
import Workgraph.History.RunRecord
import Workgraph.Number.Word
import Workgraph.Value.Document
/-!
# The history of runs

Runs that have ended, in order of their recording. They are listed by the text of the time at which
they started, latest first; of runs with the same time, the one recorded last comes first. Variables
and traces are kept as documents, so a run with an integer that cannot be written is refused.
-/

namespace Workgraph

/-- Whether a run holds an integer with more digits than are converted. -/
def RunRecord.hasLongInteger (r : RunRecord) : Bool :=
  Value.anyLongField r.initialContext || r.finalContext.any Value.anyLongField ||
    r.executionLog.any Value.anyLongField

/-- The recorded runs. -/
structure History where
  runs : List RunRecord

namespace History

/-- No runs. -/
def empty : History := ⟨[]⟩

/-- Records a run. -/
def insert (h : History) (run : RunRecord) : Except Defect History :=
  if run.hasLongInteger then .error .longInteger
  else if !isWord run.nodeCount then .error .storedInteger
  else if h.runs.any fun r => r.id = run.id then .error .duplicateRun
  else .ok ⟨h.runs ++ [run]⟩

/-- Whether a run is listed no later than another. -/
def listedBefore (a b : RunRecord) : Bool :=
  !decide (a.startedAt.isoText < b.startedAt.isoText)

/-- All runs, latest first. -/
def latestFirst (h : History) : List RunRecord := h.runs.reverse.mergeSort listedBefore

/-- The latest runs, at most so many; all of them if the limit is negative. -/
def list (h : History) (limit : Int) : List RunRecord :=
  if limit < 0 then h.latestFirst else h.latestFirst.take limit.toNat

/-- The run with an id. -/
def find? (h : History) (id : String) : Option RunRecord := h.runs.find? fun r => r.id = id

/-- The usual limit of a list of runs. -/
def standardLimit : Int := 20

end History

/-- The milliseconds from one moment to another. Both or neither must know their distance from
universal time. -/
def elapsedMilliseconds (start stop : Calendar.Moment) : Except Defect Binary64 :=
  if start.offset.isSome ≠ stop.offset.isSome then .error .mixedTimes
  else
    let micros := (stop.clock - stop.offset.getD 0) - (start.clock - start.offset.getD 0)
    .ok (Binary64.ofRatio (micros < 0) micros.natAbs 1000000 * Binary64.ofInt 1000)

end Workgraph
