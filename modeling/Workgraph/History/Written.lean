import Workgraph.History.RunRecord
/-!
# Run records as values

The form in which a run record is answered. Numbers that are not finite have no place in it and
become null.
-/

namespace Workgraph

namespace Value

mutual

/-- A value whose numbers are all finite: the others are null. -/
def finitePart : Value → Value
  | .list items => .list (finiteItems items)
  | .object fields => .object (finiteFields fields)
  | .real x => if x.isFinite then .real x else .null
  | v => v

/-- The finite parts of items. -/
def finiteItems : List Value → List Value
  | [] => []
  | v :: rest => finitePart v :: finiteItems rest

/-- The finite parts of fields. -/
def finiteFields : List (String × Value) → List (String × Value)
  | [] => []
  | (k, v) :: rest => (k, finitePart v) :: finiteFields rest

end

/-- A text or null. -/
def ofText? (s : Option String) : Value := (s.map Value.text).getD .null

end Value

/-- A run record as a value. -/
def RunRecord.toValue (r : RunRecord) : Value :=
  Value.finitePart (.object
    [("id", .text r.id), ("status", .text r.status.name),
      ("started_at", .text r.startedAt.jsonText), ("completed_at", .text r.completedAt.jsonText),
      ("duration_ms", .real r.duration), ("node_count", .int r.nodeCount),
      ("initial_context", .object r.initialContext),
      ("final_context", (r.finalContext.map Value.object).getD .null),
      ("execution_log", .list (r.executionLog.map Value.object)),
      ("error", Value.ofText? r.error), ("error_type", Value.ofText? r.errorType)])

end Workgraph
