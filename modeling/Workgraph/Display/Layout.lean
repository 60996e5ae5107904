import Workgraph.Graph.Cycle
/-!
# Layers of a graph

The ids of a graph in layers: an id without references to it is in the first layer, any other id in
the layer after the last one that refers to it. A graph with a reference cycle has no layers.
-/

namespace Workgraph

namespace Links

/-- The ids that refer to an id. -/
def before (links : Links) (id : String) : List String :=
  (links.filter fun e => e.2.contains id).map (·.1)

/-- The ids that come into a layer after the ids of another: those that follow one of them and whose
references have all been laid out, each at the place of the last one. -/
def freed (links : Links) (done : List String) (layer : List String) : List String :=
  let follow (acc : List String × List String) (id : String) : List String × List String :=
    let done := acc.1 ++ [id]
    (done, acc.2 ++ (links.after id).filter fun child =>
      (links.before child).all done.contains)
  (layer.foldl follow (done, [])).2

/-- The layers from a layer on. The bound is on their number. -/
def layersFrom (links : Links) : Nat → List String → List String → List (List String)
  | 0, _, _ => []
  | n + 1, done, layer =>
    if layer.isEmpty then []
    else layer :: layersFrom links n (done ++ layer) (links.freed done layer)

/-- The layers of a graph, unless it has a cycle. -/
def layers? (links : Links) : Option (List (List String)) :=
  let first := (links.map (·.1)).filter fun id => (links.before id).isEmpty
  let layers := layersFrom links links.length [] first
  if layers.flatten.length = links.length then some layers else none

end Links

/-- The layers of a graph, or all its nodes in one layer if it has a cycle. -/
def Graph.layers (g : Graph) : List (List String) :=
  (Links.ofGraph g).layers?.getD [g.nodes.map Node.id]

end Workgraph
