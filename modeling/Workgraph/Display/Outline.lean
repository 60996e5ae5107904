import Workgraph.Display.Layout
import Workgraph.Display.Markup
/-!
# Outlines of a graph

A graph as marked-up text: in layers, or as a tree that follows the references from the nodes that
run at top level. Nodes can be marked with the number of their visits and with a failure.
-/

namespace Workgraph

/-- A tree of labels. -/
inductive Outline where
  | branch (label : String) (children : List Outline)
deriving Inhabited

/-- A branch without children. -/
def Outline.leaf (label : String) : Outline := .branch label []

/-- What is known of a run while its graph is shown. -/
structure Marks where
  /-- The ids of the visits, if there was a run. -/
  visits : Option (List String)
  /-- The id of the node at which the run failed. -/
  failed : Option String

/-- No run. -/
def Marks.none : Marks := ⟨.none, .none⟩

/-- The sign and the colour of a node. -/
def Node.sign (n : Node) : String × String :=
  match n.behaviour with
  | .unknown .. => ("[~]", "dim")
  | .known task _ =>
    match task with
    | .trigger => ("[>]", "green")
    | .condition .. => ("[?]", "magenta")
    | .loop .. => ("[L]", "blue")
    | .parallel _ => ("[P]", "green")
    | .apiCall _ => ("[A]", "cyan")
    | .databaseQuery _ => ("[D]", "cyan")
    | .dataTransform .. => ("[T]", "yellow")
    | .filter .. => ("[F]", "yellow")
    | .delay .. => ("[Z]", "white")
    | .output => ("[O]", "green")

/-- A node as it is shown. -/
def Node.shownWith (marks : Marks) (n : Node) : String :=
  let (sign, colour) := n.sign
  let text := sign ++ " " ++ Markup.escape n.label
  if marks.failed = some n.id then Markup.styled "red bold" (text ++ " ✗")
  else
    match marks.visits with
    | none => Markup.styled colour text
    | some ids =>
      let count := ids.count n.id
      if count = 0 then Markup.styled "dim" text
      else if count = 1 then Markup.styled colour (text ++ " ✓")
      else Markup.styled colour (text ++ " ✓ x" ++ digitsText count)

namespace Graph

/-- What stands between the nodes of a layer. -/
def layerGap : String := "  |  "

/-- The lines under a layer of so many nodes that is not the last. -/
def layerArrows (count : Nat) : List String :=
  [layerGap, "  v  "].map fun mark => "  " ++ String.join (List.replicate count mark)

/-- The lines of layers of shown nodes. -/
def layerLines : List (List String) → List String
  | [] => []
  | [layer] => [layerGap.intercalate layer]
  | layer :: rest => (layerGap.intercalate layer :: layerArrows layer.length) ++ layerLines rest

/-- A graph in layers. -/
def layerText (g : Graph) (marks : Marks) : String :=
  let shown := g.layers.map fun layer =>
    (layer.filterMap g.find?).map (Node.shownWith ⟨marks.visits, none⟩)
  "\n".intercalate (layerLines shown)

end Graph

/-- The index that stands in brackets after the name of a list. -/
def placeIndex? (list place : String) : Option Nat :=
  let start := (list ++ "[").toList
  let cs := place.toList
  if start.isPrefixOf cs then
    let digits := (cs.drop start.length).takeWhile (· ≠ ']')
    if digits.isEmpty || !digits.all Char.isDigit then none
    else some (digits.foldl (fun n c => 10 * n + (c.toNat - 48)) 0)
  else none

/-- The most characters of the value of a condition that are shown. -/
def maxValueLength : Nat := 50

/-- A condition as it is shown. -/
def Condition.shown (c : Condition) : String :=
  let value := String.ofList (c.value.shown.toList.take maxValueLength)
  "if " ++ Markup.escape (c.field.getD (Value.shown .null)) ++ " " ++
    (c.operator.map Operator.name).getD "?" ++ " " ++ Markup.escape value

/-- The words for a reference of a node. -/
def Node.referenceLabel (n : Node) (place : String) : String :=
  let conditions := match n.behaviour with
    | .known (.condition conditions _) _ => conditions
    | _ => []
  if place = "nextNodeId" then "next"
  else if place = "elseNodeId" then "else"
  else if place = "loopNodeId" then "each item"
  else
    match placeIndex? "paths" place with
    | some i => "path " ++ digitsText (i + 1)
    | none =>
      match (placeIndex? "conditions" place).bind fun i => conditions[i]? with
      | some c => c.shown
      | none => Markup.escape place

namespace Graph

/-- The branch of a node, for the last of the ids on the way to it. It stops where the way would
meet an id again, and after so many nodes. -/
def branchOf (g : Graph) (marks : Marks) : Nat → List String → Node → Outline
  | 0, _, _ => .leaf (Markup.styled "dim" "... (max depth reached)")
  | depth + 1, way, n =>
    if way.contains n.id then
      .leaf (Markup.styled "dim" ("↩ " ++ Markup.escape n.id ++ " (cycle)"))
    else
      .branch (n.shownWith marks) (n.references.map fun r =>
        match g.find? r.target with
        | none => .leaf (Markup.styled "red" (Markup.escape r.target ++ " (missing)"))
        | some child =>
          .branch (Markup.styled "dim" ("(" ++ n.referenceLabel r.place ++ ")"))
            [branchOf g marks depth (n.id :: way) child])

/-- A graph as a tree. -/
def outline (g : Graph) (marks : Marks) (maxDepth : Nat) (title : String) : Outline :=
  .branch (Markup.styled "bold" (Markup.escape title) ++ " (" ++ digitsText g.nodes.length ++
      " nodes)")
    (if g.nodes.isEmpty then [.leaf (Markup.styled "red" "Error: workflow has no nodes")]
    else g.roots.map (g.branchOf marks maxDepth []))

/-- The usual greatest depth of a tree. -/
def standardDepth : Nat := 50

end Graph

end Workgraph
