import Workgraph.Display.Outline
import Workgraph.Value.Document
/-!
# Drawing a graph as a tree

The words for a reference are looked up by its place: the number in the brackets is read back, and
the condition that stands there is described. Where that goes wrong, or a value cannot be written,
nothing is drawn.
-/

namespace Workgraph

/-- The number that the digits in the brackets of a place spell. They begin after so many
characters. -/
def bracketNumber (start : Nat) (place : String) : Except Defect Nat :=
  match place.toList.idxOf? ']' with
  | none => .error (.raised "ValueError" "substring not found")
  | some stop =>
    let digits := (place.toList.take stop).drop start
    if digits.isEmpty || !digits.all Char.isDigit then .error (.numeral (String.ofList digits))
    else .ok (decimalNat digits)

/-- The condition of a number. -/
def conditionAt (conditions : List Condition) (number : Nat) : Except Defect Condition :=
  match conditions[number]? with
  | some c => .ok c
  | none => .error (.raised "IndexError" "list index out of range")

/-- A condition as it is shown, if its value can be written. -/
def Condition.described (c : Condition) : Except Defect String :=
  if c.value.hasLongInteger then .error .longInteger else .ok c.shown

/-- The words for a reference of a node, looked up by its place. -/
def Node.wordsAt (n : Node) (place : String) : Except Defect String :=
  let startsWith (s : String) : Bool := s.toList.isPrefixOf place.toList
  if place = "nextNodeId" then .ok "next"
  else if place = "elseNodeId" then .ok "else"
  else if place = "loopNodeId" then .ok "each item"
  else if startsWith "paths[" then do
    return "path " ++ digitsText ((← bracketNumber 6 place) + 1)
  else
    match n.behaviour, startsWith "conditions[" with
    | .known (.condition conditions _) _, true => do
      (← conditionAt conditions (← bracketNumber 11 place)).described
    | _, _ => .ok (Markup.escape place)

/-- What goes wrong when the words for a reference are looked up. -/
def Node.wordsDefect? (n : Node) (place : String) : Option Defect :=
  match n.wordsAt place with
  | .ok _ => none
  | .error d => some d

namespace Graph

/-- What goes wrong first in the branch of a node, for the last of the ids on the way to it. -/
def branchDefect? (g : Graph) : Nat → List String → Node → Option Defect
  | 0, _, _ => none
  | depth + 1, way, n =>
    if way.contains n.id then none
    else n.references.findSome? fun r =>
      (g.find? r.target).bind fun child =>
        (n.wordsDefect? r.place).or (branchDefect? g depth (n.id :: way) child)

/-- A graph drawn as a tree of at most so many nodes below each other. -/
def drawn (g : Graph) (marks : Marks) (maxDepth : Int) (title : String) : Except Defect Outline :=
  match g.roots.findSome? (g.branchDefect? maxDepth.toNat []) with
  | some d => .error d
  | none => .ok (g.outline marks maxDepth.toNat title)

end Graph

end Workgraph
