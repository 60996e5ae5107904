import Workgraph.Calendar.Moment
import Workgraph.Text.Quoted
/-!
# Surroundings

What a run takes from outside: the present moment and fresh ids.
-/

namespace Workgraph

/-- The present moment, and the supply of ids. The supply is numbered from one, and no number is
drawn twice. -/
structure Surroundings where
  now : Calendar.Moment
  freshId : Nat → String

namespace Surroundings

/-- The canonical timestamp of the present moment. -/
def stamp (s : Surroundings) : String := (s.now.timestamp?).getD s.now.stamp

/-- The length of the part of an id that names a run. -/
def runIdLength : Nat := 12

/-- The id of the run that draws the given number. -/
def runId (s : Surroundings) (n : Nat) : String :=
  "run-" ++ String.ofList ((s.freshId n).toList.take runIdLength)

end Surroundings

end Workgraph
