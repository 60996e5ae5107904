import Workgraph.Value.Coerce
import Workgraph.Value.Document
import Workgraph.Value.Path
import Workgraph.Text.Letter
/-!
# Templates

Texts with placeholders. A placeholder is a dotted path in braces; it is replaced by the text of the
value at that path, and stays as it is when there is no such value. A value that holds an integer of too
many digits has no text.
-/

namespace Workgraph

/-- A piece of a template. -/
inductive Piece where
  | literal (c : Char)
  | placeholder (path : String)
deriving DecidableEq, Repr

namespace Template

/-- Whether a character may stand in the path of a placeholder. -/
def isPathChar (c : Char) : Bool := Text.isWord c || c = '.'

/-- The placeholder at the start of a text, and the rest. -/
def placeholder? : List Char → Option (String × List Char)
  | '\x7b' :: rest =>
    let path := rest.takeWhile isPathChar
    match rest.dropWhile isPathChar with
    | '\x7d' :: after => if path.isEmpty then none else some (String.ofList path, after)
    | _ => none
  | _ => none

/-- The pieces of a text, from left to right. The bound is the length of the text. -/
def piecesUpTo : Nat → List Char → List Piece
  | 0, _ => []
  | _ + 1, [] => []
  | n + 1, c :: rest =>
    match placeholder? (c :: rest) with
    | some (path, after) => .placeholder path :: piecesUpTo n after
    | none => .literal c :: piecesUpTo n rest

/-- The pieces of a template. -/
def pieces (s : String) : List Piece := piecesUpTo s.length s.toList

/-- The text of a piece. -/
def fill (context : Context) : Piece → Except Defect String
  | .literal c => .ok (String.singleton c)
  | .placeholder path => do
    match ← (Value.object context).lookup path with
    | .null => return "\x7b" ++ path ++ "\x7d"
    | v => if v.hasLongInteger then throw .longInteger else return v.toText

/-- A template with its placeholders replaced by values of the context. -/
def interpolate (template : String) (context : Context) : Except Defect String := do
  let parts ← (pieces template).mapM (fill context)
  return String.join parts

end Template

end Workgraph
