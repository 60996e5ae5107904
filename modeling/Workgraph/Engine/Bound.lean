import Workgraph.Engine.Handler
/-!
# How much a run can do

The number of visits that a run of a node can lead to is bounded by the graph and the settings
alone. The bounds of all nodes are computed together, one depth after another.
-/

namespace Workgraph

/-- The bound of a node that may be given. -/
def filledBound (bound : String → Nat) (id : Option String) : Nat :=
  match filled id with
  | some i => bound i
  | none => 0

/-- The bound of a task, given the bounds of other nodes. -/
def Task.bound (settings : Settings) (bound : String → Nat) : Task → Nat
  | .condition conditions elseNode =>
    ((elseNode :: conditions.map Condition.thenNode).map (filledBound bound)).foldl max 0
  | .loop _ _ loopNode maxIterations =>
    loopCap settings maxIterations * filledBound bound loopNode
  | .parallel paths => (paths.map (filledBound bound)).foldr (· + ·) 0
  | _ => 0

/-- The bound of a node, given the bounds of other nodes: its own visit, those of its task, and
those of the node to go on with. -/
def Node.bound (settings : Settings) (bound : String → Nat) (n : Node) : Nat :=
  1 + (match n.behaviour with
    | .known task _ => task.bound settings bound
    | .unknown .. => 0) + filledBound bound n.next

namespace Graph

/-- The most visits that the node with an id leads to, when nodes schedule each other to the given
depth. -/
def bound (g : Graph) (settings : Settings) : Nat → String → Nat
  | 0, _ => 0
  | depth + 1, id =>
    match g.find? id with
    | some n => n.bound settings (g.bound settings depth)
    | none => 0

/-- The bounds of all nodes at a depth. -/
def boundTable (g : Graph) (settings : Settings) : Nat → Entries Nat
  | 0 => []
  | depth + 1 =>
    let table := g.boundTable settings depth
    g.ids.map fun id =>
      (id, match g.find? id with
        | some n => n.bound settings fun i => (Entries.get? table i).getD 0
        | none => 0)

/-- Depth beyond the number of nodes is only needed by graphs that cannot be loaded. -/
def spareDepth : Nat := 10000

/-- The depth to which the nodes of a graph may schedule each other. -/
def depth (g : Graph) : Nat := g.nodes.length + spareDepth

/-- The most turns that the schedule of several nodes takes, one node after another. Each visit
accounts for a few events: the start and end of a branch, and the end of a wait. -/
def turnBudget (g : Graph) (settings : Settings) (ids : List String) : Nat :=
  let table := g.boundTable settings g.nodes.length
  8 * (ids.map fun id => (Entries.get? table id).getD 0).foldr (· + ·) 0 + 8 * spareDepth

end Graph

end Workgraph
