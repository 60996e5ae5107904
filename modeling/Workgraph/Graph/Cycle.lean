import Workgraph.Graph.Reference
/-!
# Reference cycles

A workflow whose references lead back to where they started would never end. Small graphs have
their elementary cycles listed, each from its least id; large graphs have one cycle shown.
-/

namespace Workgraph

/-- The ids that follow each id, in order. -/
abbrev Links := Entries (List String)

namespace Links

/-- The links of a graph. -/
def ofGraph (g : Graph) : Links := g.ids.map fun id => (id, g.successors id)

/-- The ids that follow an id. -/
def after (links : Links) (id : String) : List String := (links.get? id).getD []

/-- All ids that can be reached from those in the second list along ids that are not in the first
list. Ids that have been reached join the first list; the bound is on the length of the way. -/
def reach (links : Links) : Nat → List String → List String → List String
  | 0, closed, _ => closed
  | n + 1, closed, frontier =>
    let fresh := ((frontier.flatMap links.after).filter fun v => !closed.contains v).eraseDups
    if fresh.isEmpty then closed else reach links n (closed ++ fresh) fresh

/-- Whether a cycle from `start` can be closed from `v` without meeting an id of the path again and
without an id less than `start`. -/
def closes (links : Links) (start : String) (path : List String) (v : String) : Bool :=
  let closed := v :: (path ++ (links.map (·.1)).filter (· < start))
  let reached := reach links links.length (closed.filter (· ≠ start)) [v]
  reached.contains start

/-- The elementary cycles that begin with a path, which is given last id first, added to those
already found. Only so many are looked for; the bound is on the length of the cycles. -/
def cyclesFrom (links : Links) (limit : Nat) (start : String) :
    Nat → List String → List (List String) → List (List String)
  | 0, _, found => found
  | n + 1, path, found =>
    (links.after (path.headD start)).foldl (fun found v =>
      if found.length ≥ limit then found
      else if v = start then found ++ [path.reverse]
      else if v < start || path.contains v || !links.closes start path v then found
      else cyclesFrom links limit start n (v :: path) found) found

/-- The elementary cycles, each from its least id, at most so many. -/
def cycles (links : Links) (limit : Nat) : List (List String) :=
  links.foldl (fun found e => cyclesFrom links limit e.1 links.length [e.1] found) []

/-- Walks on from a path, which is given last id first, and past the ids already seen. Stops at the
first link that leads back into the path. The bound is on the length of the path. -/
def descend (links : Links) : Nat → List String → List String → Except (List String) (List String)
  | 0, _, seen => .ok seen
  | n + 1, path, seen =>
    (path.head?.elim [] links.after).foldlM (fun seen v =>
      if path.contains v then .error ((path.takeWhile (· ≠ v)) ++ [v]).reverse
      else if seen.contains v then .ok seen
      else descend links n (v :: path) (v :: seen)) seen

/-- A cycle, if there is one: the first that a walk in depth finds from the ids in order. -/
def firstCycle? (links : Links) : Option (List String) :=
  let walk := links.foldlM (fun seen e =>
    if seen.contains e.1 then .ok seen
    else descend links (links.length + 1) [e.1] (e.1 :: seen)) []
  match walk with
  | .error cycle => some cycle
  | .ok _ => none

end Links

/-- The most nodes of a graph whose cycles are all listed. -/
def maxListedNodes : Nat := 50

/-- The most cycles that are listed. -/
def maxListedCycles : Nat := 10

/-- Texts in order. -/
def sortTexts (texts : List String) : List String := texts.mergeSort fun a b => !decide (b < a)

/-- An arrow between ids. -/
def arrows (ids : List String) : String := " -> ".intercalate ids

/-- The line about a cycle, which is closed by its first id. -/
def cycleLine (cycle : List String) : String :=
  "Reference cycle: " ++ arrows (cycle ++ cycle.take 1)

/-- The lines about the cycles of a graph. -/
def Graph.cycleLines (g : Graph) : List String :=
  let links := Links.ofGraph g
  if g.nodes.length > maxListedNodes then
    match links.firstCycle? with
    | some cycle =>
      ["Reference cycle detected: " ++ arrows cycle ++
        "... (graph too large for full cycle analysis)"]
    | none => []
  else
    let cycles := links.cycles (maxListedCycles + 1)
    let listed := sortTexts ((cycles.take maxListedCycles).map cycleLine)
    if cycles.length > maxListedCycles then
      listed ++ ["Too many reference cycles (>" ++ digitsText maxListedCycles ++
        "). Simplify graph structure."]
    else listed

end Workgraph
