import Workgraph.Calendar.Moment
import Workgraph.Number.Binary64
import Workgraph.Value.Basic
/-!
# Records of runs

What is kept of a run that has ended: when it ran and for how long, the variables it started and
ended with, its trace, and how it failed if it did.
-/

namespace Workgraph

/-- How a run ended. -/
inductive RunStatus where
  | completed
  | failed
deriving DecidableEq, Repr

namespace RunStatus

/-- The name of a status. -/
def name : RunStatus → String
  | completed => "completed"
  | failed => "failed"

/-- The status of a name. -/
def ofName? : String → Option RunStatus
  | "completed" => some completed
  | "failed" => some failed
  | _ => none

end RunStatus

/-- A run that has ended. -/
structure RunRecord where
  id : String
  status : RunStatus
  startedAt : Calendar.Moment
  completedAt : Calendar.Moment
  /-- Milliseconds. -/
  duration : Binary64
  nodeCount : Int
  initialContext : Context
  finalContext : Option Context
  executionLog : List (Entries Value)
  error : Option String
  errorType : Option String

end Workgraph
