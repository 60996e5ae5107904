import Workgraph.Value.Json
/-!
# Documents

Values as texts in the columns of a database. An integer with more digits than are converted cannot
be written.
-/

namespace Workgraph

namespace Value

mutual

/-- Whether a value holds an integer with more digits than are converted. -/
def hasLongInteger : Value → Bool
  | .int n => isLongInteger n
  | .list items => anyLongInteger items
  | .object fields => anyLongField fields
  | _ => false

/-- Whether any of the items holds an integer with more digits than are converted. -/
def anyLongInteger : List Value → Bool
  | [] => false
  | v :: rest => hasLongInteger v || anyLongInteger rest

/-- Whether any of the fields holds an integer with more digits than are converted. -/
def anyLongField : List (String × Value) → Bool
  | [] => false
  | (_, v) :: rest => hasLongInteger v || anyLongField rest

end

end Value

namespace Json

/-- The document of a value. -/
def document (v : Value) : Except Defect String :=
  if v.hasLongInteger then .error .longInteger else .ok (write spaced v)

/-- The fields of the object that a document spells. -/
def documentFields (s : String) : Entries Value :=
  match decode s with
  | .ok (.object fields) => fields
  | _ => []

end Json

end Workgraph
