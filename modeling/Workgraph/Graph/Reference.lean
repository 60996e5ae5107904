import Workgraph.Graph.Node
/-!
# References

The ids to which nodes refer, and what follows from them: which nodes run at top level, which
references lead nowhere, and where the walk through a workflow ends.
-/

namespace Workgraph

/-- A reference of a node: where its configuration holds it, and the id it holds. -/
structure Reference where
  place : String
  target : String
deriving DecidableEq, Repr

/-- A reference, if the configuration holds an id that is not empty. -/
def Reference.ofField (place : String) (id : Option String) : List Reference :=
  match filled id with
  | some target => [⟨place, target⟩]
  | none => []

/-- A place in a list of a configuration. -/
def listPlace (list field : String) (index : Nat) : String :=
  list ++ "[" ++ digitsText index ++ "]." ++ field

/-- References of the items of a list, from an index on. -/
def listReferences (list field : String) (index : Nat) : List (Option String) → List Reference
  | [] => []
  | id :: rest =>
    Reference.ofField (listPlace list field index) id ++
      listReferences list field (index + 1) rest

/-- The references of a task. -/
def Task.references : Task → List Reference
  | .condition conditions elseNode =>
    listReferences "conditions" "thenNodeId" 0 (conditions.map Condition.thenNode) ++
      Reference.ofField "elseNodeId" elseNode
  | .loop _ _ loopNode _ => Reference.ofField "loopNodeId" loopNode
  | .parallel paths => listReferences "paths" "nodeId" 0 paths
  | _ => []

namespace Node

/-- The references of a node: those of its task, and then the node to go on with. -/
def references (n : Node) : List Reference :=
  (match n.behaviour with
    | .known task _ => task.references
    | .unknown .. => []) ++ Reference.ofField "nextNodeId" n.next

/-- The ids to which a node refers. -/
def targets (n : Node) : List String := n.references.map Reference.target

end Node

/-- A workflow: its nodes in order. -/
structure Graph where
  nodes : List Node

namespace Graph

/-- The node of an id: the first, if several have it. -/
def find? (g : Graph) (id : String) : Option Node := g.nodes.find? fun n => n.id = id

/-- The ids of the nodes, each once, in order. -/
def ids (g : Graph) : List String := (g.nodes.map Node.id).eraseDups

/-- Whether an id is that of a node. -/
def hasId (g : Graph) (id : String) : Bool := g.nodes.any fun n => n.id = id

/-- All ids to which nodes refer. -/
def referenced (g : Graph) : List String := g.nodes.flatMap Node.targets

/-- The nodes that run at top level, in order: the first one, and every other node to which no node
refers. -/
def roots (g : Graph) : List Node :=
  match g.nodes with
  | [] => []
  | entry :: rest =>
    let referenced := g.referenced
    entry :: rest.filter fun n => !referenced.contains n.id && n.id ≠ entry.id

/-- The references that lead nowhere, as pairs of the node that has them and the id. -/
def dangling (g : Graph) : List (String × String) :=
  g.nodes.flatMap fun n => (n.targets.filter fun t => !g.hasId t).map fun t => (n.id, t)

/-- The ids to which the nodes of an id refer, as far as they exist, each once, in order. -/
def successors (g : Graph) (id : String) : List String :=
  (((g.nodes.filter fun n => n.id = id).flatMap Node.targets).filter g.hasId).eraseDups

/-- The ids from which nothing follows. -/
def terminals (g : Graph) : List String := g.ids.filter fun id => (g.successors id).isEmpty

end Graph

end Workgraph
