import Workgraph.Graph.Cycle
import Workgraph.Graph.Schema
/-!
# Checking workflows

A workflow that is run has fitting nodes with distinct ids, references that lead somewhere, and no
reference cycle. Other oddities are worth a warning only.
-/

namespace Workgraph

/-- A line for each node whose id an earlier node has. -/
def duplicateLines (seen : List String) : List Node → List String
  | [] => []
  | n :: rest =>
    if seen.contains n.id then ("Duplicate node ID: '" ++ n.id ++ "'") :: duplicateLines seen rest
    else duplicateLines (n.id :: seen) rest

/-- What a condition without an operator is warned about. -/
def operatorWarnings (id : String) (index : Nat) : List Condition → List String
  | [] => []
  | c :: rest =>
    (if c.operator.isNone then
      ["Node '" ++ id ++ "': conditions[" ++ digitsText index ++
        "] has no operator and never matches"]
    else []) ++ operatorWarnings id (index + 1) rest

/-- What a node is warned about. -/
def Node.warnings (n : Node) : List String :=
  match n.behaviour with
  | .unknown type _ => ["Node '" ++ n.id ++ "': unknown type '" ++ type ++ "' will be skipped"]
  | .known (.condition conditions elseNode) _ =>
    (if (filled elseNode).isNone && conditions.all fun c => (filled c.thenNode).isNone then
      ["Condition node '" ++ n.id ++ "' has no branch targets"]
    else []) ++ operatorWarnings n.id 0 conditions
  | .known (.loop arrayField _ loopNode _) _ =>
    (if (filled loopNode).isNone then
      ["Loop node '" ++ n.id ++ "' has no loopNodeId (empty body)"]
    else []) ++
      if (filled arrayField).isNone then ["Loop node '" ++ n.id ++ "' has no arrayField"] else []
  | .known (.parallel paths) _ =>
    if paths.all fun p => (filled p).isNone then ["Parallel node '" ++ n.id ++ "' has no paths"]
    else []
  | .known (.filter _ conditions _) _ => operatorWarnings n.id 0 conditions
  | _ => []

namespace Graph

/-- The structural errors of a graph. -/
def errors (g : Graph) : List String :=
  if g.nodes.isEmpty then ["No nodes to execute"]
  else
    duplicateLines [] g.nodes ++
      (g.dangling.map fun (source, target) =>
        "Node '" ++ source ++ "': referenced node '" ++ target ++ "' not found") ++
      g.cycleLines

/-- What is warned about in a graph. -/
def warnings (g : Graph) : List String :=
  match g.nodes with
  | [] => []
  | entry :: _ =>
    (if entry.typeName ≠ "trigger" then
      ["First node '" ++ entry.id ++ "' is a '" ++ entry.typeName ++ "' node, not a trigger"]
    else []) ++ g.nodes.flatMap Node.warnings

/-- The graph of a value whose nodes fit, or the misfits. -/
def ofValue (v : Value) : Except Defect (Schema.Fit Graph) := do
  return (← nodesOf v).map Graph.mk

/-- A graph that can be run, from a value. The first dangling reference is reported before any other
structural error. -/
def load (v : Value) : Except Fault Graph :=
  match ofValue v with
  | .error d => .error (.defect d)
  | .ok (.misfits found) =>
    match nodeLines v found with
    | .error d => .error (.defect d)
    | .ok lines => .error (.malformed lines)
  | .ok (.fits g) =>
    match g.dangling with
    | (source, target) :: _ => .error (.nodeNotFound target (some source))
    | [] => if g.errors.isEmpty then .ok g else .error (.invalidGraph g.errors)

end Graph

/-- Everything found in a value that stands for nodes. -/
structure Findings where
  errors : List String
  warnings : List String
deriving DecidableEq, Repr

/-- All errors and warnings about a value that stands for nodes. -/
def findings (v : Value) : Except Defect Findings :=
  if !v.isPresent then .ok ⟨["No nodes to execute"], []⟩
  else do
    match ← Graph.ofValue v with
    | .misfits found => return ⟨← nodeLines v found, []⟩
    | .fits g => return ⟨g.errors, g.warnings⟩

end Workgraph
