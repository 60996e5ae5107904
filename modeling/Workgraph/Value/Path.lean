import Workgraph.Value.Basic
import Workgraph.Number.Numeral
/-!
# Dotted paths

Looking up a value inside another by a path of names and positions separated by points.
-/

namespace Workgraph

/-- The segments of a dotted path. -/
def segments (path : String) : List String := path.splitOn "."

namespace Value

/-- One step of a lookup: a field of an object, or a position of a list when the segment consists
of digits. Anything else is missing. -/
def step (v : Value) (segment : String) : Except Defect Value :=
  match v with
  | .object fields => .ok ((Entries.get? fields segment).getD .null)
  | .list items =>
    if segment ≠ "" && segment.toList.all Text.isDigit then do
      let i ← readInteger segment
      return (items[i.toNat]?).getD .null
    else .ok .null
  | _ => .ok .null

/-- The value at the end of a path of segments; null ends the walk. -/
def follow : Value → List String → Except Defect Value
  | v, [] => .ok v
  | v, s :: rest =>
    match v.step s with
    | .error e => .error e
    | .ok .null => .ok .null
    | .ok w => w.follow rest

/-- The value at a dotted path, null when it is missing. The empty path is the value itself. -/
def lookup (v : Value) (path : String) : Except Defect Value :=
  if path = "" then .ok v else v.follow (segments path)

end Value

end Workgraph
