import Workgraph.Proofs.Display.References
import Workgraph.Proofs.Engine.Nesting
/-!
# What the tree of a graph shows

The branches of the tree of a graph stand for nodes, for references, and for the three reasons not
to go on: a reference leads nowhere, it leads to an id that is on the way already, or too many nodes
are above. A sketch is the tree before it is written (`branchOf_eq_outline`). What stands below a
branch depends on the last label of the path to it, on the ids of the nodes on that path and on how
many they are, whether or not the graph is sound (`Graph.unfolds_sketch`).
-/

namespace Workgraph

/-- What a branch stands for. -/
inductive Label where
  | node (n : Node)
  | reference (n : Node) (r : Reference)
  /-- A reference that leads nowhere. -/
  | missing (r : Reference)
  /-- The id of a node that stands above. -/
  | cycle (id : String)
  /-- As many nodes stand above as are shown. -/
  | deep

namespace Label

/-- The words for a label. -/
def text (marks : Marks) : Label → String
  | node n => n.shownWith marks
  | reference n r => Markup.styled "dim" ("(" ++ n.referenceLabel r.place ++ ")")
  | missing r => Markup.styled "red" (Markup.escape r.target ++ " (missing)")
  | cycle id => Markup.styled "dim" ("↩ " ++ Markup.escape id ++ " (cycle)")
  | deep => Markup.styled "dim" "... (max depth reached)"

/-- The id of a node. -/
def nodeId? : Label → Option String
  | node n => some n.id
  | _ => none

/-- The reference of a label for one that leads somewhere. -/
def reference? : Label → Option Reference
  | reference _ r => some r
  | _ => none

end Label

/-- The ids of the nodes on a path of labels. -/
def nodeIds (path : List Label) : List String := path.filterMap Label.nodeId?

/-- A tree of what its branches stand for. -/
inductive Sketch where
  | branch (label : Label) (children : List Sketch)

namespace Sketch

mutual

/-- A sketch in words. -/
def outline (marks : Marks) : Sketch → Outline
  | .branch label children => .branch (label.text marks) (outlines marks children)

/-- Several sketches in words. -/
def outlines (marks : Marks) : List Sketch → List Outline
  | [] => []
  | first :: rest => first.outline marks :: outlines marks rest

end

mutual

/-- The labels on the way to each branch, from top to bottom. -/
def paths : Sketch → List (List Label)
  | .branch label children => [label] :: (pathsOf children).map (label :: ·)

/-- The labels on the way to each branch of several sketches. -/
def pathsOf : List Sketch → List (List Label)
  | [] => []
  | first :: rest => first.paths ++ pathsOf rest

end

theorem outlines_eq_map (marks : Marks) (sketches : List Sketch) :
    outlines marks sketches = sketches.map (outline marks) := by
  induction sketches with
  | nil => rfl
  | cons first rest ih => rw [outlines, ih, List.map_cons]

theorem pathsOf_eq_flatMap (sketches : List Sketch) :
    pathsOf sketches = sketches.flatMap paths := by
  induction sketches with
  | nil => rfl
  | cons first rest ih => rw [pathsOf, ih, List.flatMap_cons]

theorem ne_nil_of_mem_paths {sketch : Sketch} {path : List Label} (h : path ∈ sketch.paths) :
    path ≠ [] := by
  obtain ⟨label, children⟩ := sketch
  rw [paths] at h
  rcases List.mem_cons.1 h with rfl | h
  · exact List.cons_ne_nil _ _
  · obtain ⟨rest, -, rfl⟩ := List.mem_map.1 h
    exact List.cons_ne_nil _ _

/-- A node that a path leads to, and the references on the way. -/
def visit? (path : List Label) : Option (List Reference × Node) :=
  match path.getLast? with
  | some (.node n) => some (path.filterMap Label.reference?, n)
  | _ => none

/-- The branches that stand for nodes, from top to bottom: the references on the way to each, and
the node. -/
def visits (sketch : Sketch) : List (List Reference × Node) := sketch.paths.filterMap visit?

/-- Below a reference the way to a node has one reference more. -/
theorem visit?_cons_cons (n : Node) (r : Reference) (path : List Label) :
    visit? (.node n :: .reference n r :: path) =
      (visit? path).map fun v => (r :: v.1, v.2) := by
  cases path with
  | nil => rfl
  | cons first rest =>
    unfold visit?
    rw [List.getLast?_cons_cons, List.getLast?_cons_cons]
    split <;> rfl

end Sketch

namespace Graph

open Sketch

/-- The sketch of a node, for the last of the ids on the way to it. -/
def sketch (g : Graph) : Nat → List String → Node → Sketch
  | 0, _, _ => .branch .deep []
  | depth + 1, way, n =>
    if way.contains n.id then .branch (.cycle n.id) []
    else .branch (.node n) (n.references.map fun r =>
      match g.find? r.target with
      | none => .branch (.missing r) []
      | some child => .branch (.reference n r) [sketch g depth (n.id :: way) child])

variable {g : Graph} {depth : Nat} {way : List String} {n : Node}

/-- The branch of a node is its sketch in words. -/
theorem branchOf_eq_outline (g : Graph) (marks : Marks) :
    ∀ (depth : Nat) (way : List String) (n : Node),
      g.branchOf marks depth way n = (g.sketch depth way n).outline marks
  | 0, _, _ => rfl
  | depth + 1, way, n => by
    rw [branchOf, sketch]
    split
    · rfl
    · rw [Sketch.outline, outlines_eq_map, List.map_map]
      refine congrArg (Outline.branch _) (List.map_congr_left fun r _ => ?_)
      rw [Function.comp_apply]
      cases g.find? r.target with
      | none => rfl
      | some child =>
        simp only [branchOf_eq_outline g marks depth]
        rfl

/-! ## Paths -/

/-- The paths that begin with a reference. -/
def referencePaths (g : Graph) (depth : Nat) (way : List String) (n : Node) (r : Reference) :
    List (List Label) :=
  match g.find? r.target with
  | none => [[.missing r]]
  | some child => [.reference n r] :: (g.sketch depth way child).paths.map (.reference n r :: ·)

theorem paths_sketch_cut (h : n.id ∈ way) :
    (g.sketch (depth + 1) way n).paths = [[.cycle n.id]] := by
  rw [sketch, if_pos (by simpa using h)]
  rfl

theorem paths_sketch_succ (h : n.id ∉ way) :
    (g.sketch (depth + 1) way n).paths =
      [.node n] :: (n.references.flatMap (g.referencePaths depth (n.id :: way) n)).map
        (.node n :: ·) := by
  rw [sketch, if_neg (by simpa using h), paths, pathsOf_eq_flatMap, List.flatMap_map]
  refine congrArg (fun below : List (List Label) => [.node n] :: below.map (.node n :: ·)) ?_
  refine List.flatMap_congr fun r _ => ?_
  rw [referencePaths]
  cases g.find? r.target with
  | none => rfl
  | some child =>
    simp only [paths, pathsOf, List.append_nil]

/-- The paths of a node: to itself, to its references that lead nowhere, and along the others. -/
theorem mem_paths_succ_iff (h : n.id ∉ way) {path : List Label} :
    path ∈ (g.sketch (depth + 1) way n).paths ↔
      path = [.node n] ∨
        (∃ r ∈ n.references, g.find? r.target = none ∧ path = [.node n, .missing r]) ∨
        ∃ r ∈ n.references, ∃ child, g.find? r.target = some child ∧
          ∃ rest, path = .node n :: .reference n r :: rest ∧
            (rest = [] ∨ rest ∈ (g.sketch depth (n.id :: way) child).paths) := by
  rw [paths_sketch_succ h, List.mem_cons, List.mem_map]
  refine or_congr_right ?_
  constructor
  · rintro ⟨below, hbelow, rfl⟩
    obtain ⟨r, hr, hpath⟩ := List.mem_flatMap.1 hbelow
    rw [referencePaths] at hpath
    split at hpath
    · rename_i hfind
      exact .inl ⟨r, hr, hfind, by rw [List.mem_singleton.1 hpath]⟩
    · rename_i child hfind
      refine .inr ⟨r, hr, child, hfind, ?_⟩
      rcases List.mem_cons.1 hpath with rfl | hpath
      · exact ⟨[], rfl, .inl rfl⟩
      · obtain ⟨rest, hrest, rfl⟩ := List.mem_map.1 hpath
        exact ⟨rest, rfl, .inr hrest⟩
  · rintro (⟨r, hr, hfind, rfl⟩ | ⟨r, hr, child, hfind, rest, rfl, hrest⟩)
    · refine ⟨[.missing r], List.mem_flatMap.2 ⟨r, hr, ?_⟩, rfl⟩
      rw [referencePaths, hfind]
      exact List.mem_singleton_self _
    · refine ⟨.reference n r :: rest, List.mem_flatMap.2 ⟨r, hr, ?_⟩, rfl⟩
      rw [referencePaths, hfind]
      rcases hrest with rfl | hrest
      · exact List.mem_cons_self
      · exact List.mem_cons_of_mem _ (List.mem_map_of_mem hrest)

/-- The first label of a sketch. -/
def topLabel (depth : Nat) (way : List String) (n : Node) : Label :=
  if depth = 0 then .deep else if n.id ∈ way then .cycle n.id else .node n

theorem singleton_mem_paths_iff {label : Label} :
    [label] ∈ (g.sketch depth way n).paths ↔ label = topLabel depth way n := by
  cases depth with
  | zero => simp [sketch, paths, pathsOf, topLabel]
  | succ depth =>
    by_cases h : n.id ∈ way
    · rw [paths_sketch_cut h]
      simp [topLabel, h]
    · rw [mem_paths_succ_iff h]
      simp [topLabel, h]

/-- A label that stands below a path, inside a sketch for so many nodes and the ids on the way to
it. -/
inductive Below (g : Graph) (depth : Nat) (way : List String) (path : List Label) : Label → Prop
  | reference {n child : Node} {r : Reference} : path.getLast? = some (.node n) →
      r ∈ n.references → g.find? r.target = some child → Below g depth way path (.reference n r)
  | missing {n : Node} {r : Reference} : path.getLast? = some (.node n) → r ∈ n.references →
      g.find? r.target = none → Below g depth way path (.missing r)
  | top {n child : Node} {r : Reference} {label : Label} :
      path.getLast? = some (.reference n r) → g.find? r.target = some child →
      label = topLabel (depth - (nodeIds path).length) (nodeIds path ++ way) child →
      Below g depth way path label

/-- What stands below a path does not depend on where the sketch begins. -/
theorem below_cons_cons_iff {r : Reference} {label : Label} {path : List Label}
    (hpath : path ≠ []) :
    g.Below (depth + 1) way (.node n :: .reference n r :: path) label ↔
      g.Below depth (n.id :: way) path label := by
  have hlast : (Label.node n :: .reference n r :: path).getLast? = path.getLast? := by
    obtain ⟨first, rest, rfl⟩ := List.exists_cons_of_ne_nil hpath
    rw [List.getLast?_cons_cons, List.getLast?_cons_cons]
  have hids : nodeIds (.node n :: .reference n r :: path) = n.id :: nodeIds path := rfl
  -- The node counts as one on the path or as one on the way to the sketch.
  have htop : ∀ child, topLabel (depth + 1 - (n.id :: nodeIds path).length)
      ((n.id :: nodeIds path) ++ way) child =
        topLabel (depth - (nodeIds path).length) (nodeIds path ++ n.id :: way) child := by
    intro child
    have hroom : depth + 1 - (n.id :: nodeIds path).length = depth - (nodeIds path).length := by
      rw [List.length_cons]
      omega
    have hmem : child.id ∈ (n.id :: nodeIds path) ++ way ↔
        child.id ∈ nodeIds path ++ n.id :: way := by
      simp only [List.cons_append, List.mem_cons, List.mem_append]
      tauto
    rw [topLabel, topLabel, hroom]
    simp only [hmem]
  constructor
  · rintro (⟨hnode, hr, hfind⟩ | ⟨hnode, hr, hfind⟩ | ⟨hreference, hfind, hlabel⟩)
    · exact .reference (hlast ▸ hnode) hr hfind
    · exact .missing (hlast ▸ hnode) hr hfind
    · rw [hids, htop] at hlabel
      exact .top (hlast ▸ hreference) hfind hlabel
  · rintro (⟨hnode, hr, hfind⟩ | ⟨hnode, hr, hfind⟩ | ⟨hreference, hfind, hlabel⟩)
    · exact .reference (hlast.trans hnode) hr hfind
    · exact .missing (hlast.trans hnode) hr hfind
    · rw [← htop] at hlabel
      exact .top (hlast.trans hreference) hfind hlabel

/-- Nothing stands below a label that is neither a node nor a reference. -/
theorem append_mem_leaf_iff {first label : Label} {path : List Label}
    (hnode : ∀ n, first ≠ .node n) (hreference : ∀ n r, first ≠ .reference n r)
    (hpath : path ≠ []) :
    path ++ [label] ∈ [[first]] ↔ path ∈ [[first]] ∧ g.Below depth way path label := by
  rw [List.mem_singleton, List.mem_singleton]
  constructor
  · intro h
    rw [List.append_eq_singleton_iff] at h
    simp [hpath] at h
  · rintro ⟨rfl, ⟨h, -, -⟩ | ⟨h, -, -⟩ | ⟨h, -, -⟩⟩
    · exact absurd (Option.some.inj h) (hnode _)
    · exact absurd (Option.some.inj h) (hnode _)
    · exact absurd (Option.some.inj h) (hreference _ _)

/-- How a path of a node goes on: with a reference of the node, with the node to which a reference
leads, or inside the sketch of that node. -/
theorem append_mem_paths_succ_iff {label : Label} {path : List Label} (hway : n.id ∉ way)
    (hpath : path ≠ []) :
    path ++ [label] ∈ (g.sketch (depth + 1) way n).paths ↔
      (∃ r ∈ n.references, g.find? r.target = none ∧ path = [.node n] ∧ label = .missing r) ∨
      ∃ r ∈ n.references, ∃ child, g.find? r.target = some child ∧
        (path = [.node n] ∧ label = .reference n r ∨
          path = [.node n, .reference n r] ∧ label = topLabel depth (n.id :: way) child ∨
          ∃ rest, rest ≠ [] ∧ path = .node n :: .reference n r :: rest ∧
            rest ++ [label] ∈ (g.sketch depth (n.id :: way) child).paths) := by
  rw [mem_paths_succ_iff hway]
  constructor
  · rintro (h | ⟨r, hr, hfind, h⟩ | ⟨r, hr, child, hfind, rest, h, hrest⟩)
    · rw [List.append_eq_singleton_iff] at h
      simp [hpath] at h
    · have hsplit : path ++ [label] = [.node n] ++ [.missing r] := h
      obtain ⟨rfl, hlabel⟩ := List.append_inj' hsplit rfl
      exact .inl ⟨r, hr, hfind, rfl, (List.cons.inj hlabel).1⟩
    · refine .inr ⟨r, hr, child, hfind, ?_⟩
      rcases List.eq_nil_or_concat' rest with rfl | ⟨rest, last, rfl⟩
      · have hsplit : path ++ [label] = [.node n] ++ [.reference n r] := h
        obtain ⟨rfl, hlabel⟩ := List.append_inj' hsplit rfl
        exact .inl ⟨rfl, (List.cons.inj hlabel).1⟩
      · have hsplit : path ++ [label] = (.node n :: .reference n r :: rest) ++ [last] := h
        obtain ⟨rfl, hlabel⟩ := List.append_inj' hsplit rfl
        cases hlabel
        have hmem := hrest.resolve_left (by simp)
        rcases eq_or_ne rest [] with rfl | hne
        · exact .inr (.inl ⟨rfl, singleton_mem_paths_iff.1 hmem⟩)
        · exact .inr (.inr ⟨rest, hne, rfl, hmem⟩)
  · rintro (⟨r, hr, hfind, rfl, rfl⟩ | ⟨r, hr, child, hfind, hgoesOn⟩)
    · exact .inr (.inl ⟨r, hr, hfind, rfl⟩)
    · refine .inr (.inr ⟨r, hr, child, hfind, ?_⟩)
      rcases hgoesOn with ⟨rfl, rfl⟩ | ⟨rfl, hlabel⟩ | ⟨rest, -, rfl, hmem⟩
      · exact ⟨[], rfl, .inl rfl⟩
      · exact ⟨[label], rfl, .inr (singleton_mem_paths_iff.2 hlabel)⟩
      · exact ⟨rest ++ [label], rfl, .inr hmem⟩

/-- A path goes on with the labels that stand below it. -/
theorem append_mem_paths_iff {label : Label} :
    ∀ {depth : Nat} {way : List String} {n : Node} {path : List Label}, path ≠ [] →
      (path ++ [label] ∈ (g.sketch depth way n).paths ↔
        path ∈ (g.sketch depth way n).paths ∧ g.Below depth way path label) := by
  intro depth
  induction depth with
  | zero =>
    intro way n path hpath
    exact append_mem_leaf_iff (fun _ => by simp) (fun _ _ => by simp) hpath
  | succ depth ih =>
    intro way n path hpath
    by_cases hway : n.id ∈ way
    · rw [paths_sketch_cut hway]
      exact append_mem_leaf_iff (fun _ => by simp) (fun _ _ => by simp) hpath
    rw [append_mem_paths_succ_iff hway hpath, mem_paths_succ_iff hway]
    constructor
    · rintro (⟨r, hr, hfind, rfl, rfl⟩ | ⟨r, hr, child, hfind, hgoesOn⟩)
      · exact ⟨.inl rfl, .missing rfl hr hfind⟩
      · rcases hgoesOn with ⟨rfl, rfl⟩ | ⟨rfl, hlabel⟩ | ⟨rest, hne, rfl, hmem⟩
        · exact ⟨.inl rfl, .reference rfl hr hfind⟩
        · exact ⟨.inr (.inr ⟨r, hr, child, hfind, [], rfl, .inl rfl⟩), .top rfl hfind hlabel⟩
        · obtain ⟨hrest, hbelow⟩ := (ih hne).1 hmem
          exact ⟨.inr (.inr ⟨r, hr, child, hfind, rest, rfl, .inr hrest⟩),
            (below_cons_cons_iff hne).2 hbelow⟩
    · rintro ⟨rfl | ⟨r, hr, hfind, rfl⟩ | ⟨r, hr, child, hfind, rest, rfl, rfl | hrest⟩, hbelow⟩
      -- Below the node stand its references.
      · rcases hbelow with ⟨h, hr, hfind⟩ | ⟨h, hr, hfind⟩ | ⟨h, -, -⟩
        · cases h
          exact .inr ⟨_, hr, _, hfind, .inl ⟨rfl, rfl⟩⟩
        · cases h
          exact .inl ⟨_, hr, hfind, rfl, rfl⟩
        · cases h
      -- Below a reference that leads nowhere stands nothing.
      · rcases hbelow with ⟨h, -, -⟩ | ⟨h, -, -⟩ | ⟨h, -, -⟩ <;> cases h
      -- Below any other reference stands the first label of the node to which it leads.
      · rcases hbelow with ⟨h, -, -⟩ | ⟨h, -, -⟩ | ⟨h, hfind', hlabel⟩
        · cases h
        · cases h
        · cases h
          obtain rfl := Option.some.inj (hfind.symm.trans hfind')
          exact .inr ⟨r, hr, child, hfind, .inr (.inl ⟨rfl, hlabel⟩)⟩
      · have hne := ne_nil_of_mem_paths hrest
        have hlonger := (ih hne).2 ⟨hrest, (below_cons_cons_iff hne).1 hbelow⟩
        exact .inr ⟨r, hr, child, hfind, .inr (.inr ⟨rest, hne, rfl, hlonger⟩)⟩

/-! ## Nodes on a path -/

/-- The nodes on a path have distinct ids of the graph that are not on the way to the sketch, and
there are not more of them than the depth. -/
theorem nodeIds_of_mem_paths : ∀ {depth : Nat} {way : List String} {n : Node} {path : List Label},
    n ∈ g.nodes → path ∈ (g.sketch depth way n).paths →
      (nodeIds path).Nodup ∧ (nodeIds path).length ≤ depth ∧
        ∀ id ∈ nodeIds path, id ∉ way ∧ ∃ m ∈ g.nodes, m.id = id := by
  intro depth
  induction depth with
  | zero =>
    intro way n path hn hpath
    obtain rfl : path = [.deep] := List.mem_singleton.1 hpath
    exact ⟨List.nodup_nil, le_rfl, fun id hid => by cases hid⟩
  | succ depth ih =>
    intro way n path hn hpath
    by_cases hway : n.id ∈ way
    · rw [paths_sketch_cut hway, List.mem_singleton] at hpath
      subst hpath
      exact ⟨List.nodup_nil, Nat.zero_le _, fun id hid => by cases hid⟩
    · have halone : ([n.id] : List String).Nodup ∧ [n.id].length ≤ depth + 1 ∧
          ∀ id ∈ [n.id], id ∉ way ∧ ∃ m ∈ g.nodes, m.id = id := by
        refine ⟨List.nodup_singleton _, Nat.succ_le_succ (Nat.zero_le _), fun id hid => ?_⟩
        rw [List.mem_singleton.1 hid]
        exact ⟨hway, n, hn, rfl⟩
      rcases (mem_paths_succ_iff hway).1 hpath with
        rfl | ⟨r, hr, hfind, rfl⟩ | ⟨r, hr, child, hfind, rest, rfl, rfl | hrest⟩
      · exact halone
      · exact halone
      · exact halone
      · have hchild := (exists_of_find?_eq_some hfind).1
        obtain ⟨hnodup, hlength, hids⟩ := ih hchild hrest
        have hcons : nodeIds (.node n :: .reference n r :: rest) = n.id :: nodeIds rest := rfl
        rw [hcons]
        refine ⟨List.nodup_cons.2 ⟨fun hid => ?_, hnodup⟩, Nat.succ_le_succ hlength, ?_⟩
        · exact (hids _ hid).1 List.mem_cons_self
        · rintro id (_ | ⟨_, hid⟩)
          · exact ⟨hway, n, hn, rfl⟩
          · exact ⟨fun hmem => (hids id hid).1 (List.mem_cons_of_mem _ hmem), (hids id hid).2⟩

/-- A path along a reference begins with that reference. -/
theorem exists_of_mem_referencePaths {r : Reference} {path : List Label}
    (h : path ∈ g.referencePaths depth way n r) :
    ∃ rest, path = .missing r :: rest ∨ path = .reference n r :: rest := by
  rw [referencePaths] at h
  split at h
  · exact ⟨[], .inl (List.mem_singleton.1 h)⟩
  · rcases List.mem_cons.1 h with rfl | h
    · exact ⟨[], .inr rfl⟩
    · obtain ⟨rest, -, rfl⟩ := List.mem_map.1 h
      exact ⟨rest, .inr rfl⟩

/-- No two branches have the same labels on the way to them. -/
theorem nodup_paths_sketch (g : Graph) :
    ∀ (depth : Nat) (way : List String) (n : Node), (g.sketch depth way n).paths.Nodup
  | 0, _, _ => List.nodup_singleton _
  | depth + 1, way, n => by
    by_cases hway : n.id ∈ way
    · rw [paths_sketch_cut hway]
      exact List.nodup_singleton _
    · have hreferences : n.references.Nodup := n.nodup_places.of_map Reference.place
      -- Paths differ inside the branch of one reference, or in the reference they begin with.
      have heach : ∀ r ∈ n.references, (g.referencePaths depth (n.id :: way) n r).Nodup := by
        intro r _
        rw [referencePaths]
        split
        · exact List.nodup_singleton _
        · rename_i child _
          refine List.nodup_cons.2 ⟨?_, ?_⟩
          · rw [List.mem_map]
            rintro ⟨rest, hrest, hnil⟩
            exact ne_nil_of_mem_paths hrest (List.cons.inj hnil).2
          · exact (nodup_paths_sketch g depth _ child).map List.cons_injective
      rw [paths_sketch_succ hway, List.nodup_cons]
      refine ⟨?_, List.Nodup.map List.cons_injective ?_⟩
      · rw [List.mem_map]
        rintro ⟨path, hpath, hnil⟩
        obtain ⟨r, -, hpath⟩ := List.mem_flatMap.1 hpath
        obtain ⟨rest, rfl | rfl⟩ := exists_of_mem_referencePaths hpath <;> cases hnil
      · refine List.nodup_flatMap.2 ⟨heach, hreferences.imp ?_⟩
        intro r r' hne path hpath hpath'
        obtain ⟨rest, hfirst⟩ := exists_of_mem_referencePaths hpath
        obtain ⟨rest', rfl | rfl⟩ := exists_of_mem_referencePaths hpath'
        · rcases hfirst with hfirst | hfirst
          · exact hne (Label.missing.inj (List.cons.inj hfirst).1).symm
          · cases hfirst
        · rcases hfirst with hfirst | hfirst
          · cases hfirst
          · exact hne (Label.reference.inj (List.cons.inj hfirst).1).2.symm

/-! ## What stands where -/

theorem topLabel_eq_node_iff {m : Node} :
    topLabel depth way n = .node m ↔ 0 < depth ∧ n.id ∉ way ∧ n = m := by
  unfold topLabel
  split
  · simp [*]
  · split <;> simp [*, Nat.pos_iff_ne_zero]

theorem topLabel_eq_cycle_iff {id : String} :
    topLabel depth way n = .cycle id ↔ 0 < depth ∧ n.id ∈ way ∧ n.id = id := by
  unfold topLabel
  split
  · simp [*]
  · split <;> simp [*, Nat.pos_iff_ne_zero]

theorem topLabel_eq_deep_iff : topLabel depth way n = .deep ↔ depth = 0 := by
  unfold topLabel
  split
  · simp [*]
  · split <;> simp [*]

/-- What stands where in a tree below a node that is so many nodes deep. -/
structure Unfolds (g : Graph) (depth : Nat) (root : Node) (tree : Sketch) : Prop where
  /-- Branches are told apart by the labels on the way to them. -/
  distinct : tree.paths.Nodup
  /-- No way has two nodes of one id, or more nodes than the depth. -/
  once : ∀ path ∈ tree.paths, (nodeIds path).Nodup ∧ (nodeIds path).length ≤ depth ∧
    ∀ id ∈ nodeIds path, ∃ m ∈ g.nodes, m.id = id
  top : ∀ label, [label] ∈ tree.paths ↔ label = if depth = 0 then .deep else .node root
  /-- The references of a node that lead somewhere stand below it. -/
  reference : ∀ path n r, path ++ [.reference n r] ∈ tree.paths ↔ path ∈ tree.paths ∧
    path.getLast? = some (.node n) ∧ r ∈ n.references ∧ ∃ child, g.find? r.target = some child
  /-- So do the references that lead nowhere. -/
  missing : ∀ path r, path ++ [.missing r] ∈ tree.paths ↔ path ∈ tree.paths ∧
    ∃ n, path.getLast? = some (.node n) ∧ r ∈ n.references ∧ g.find? r.target = none
  /-- Below a reference stands the node to which it leads, if its id is new and there is room. -/
  node : ∀ path child, path ≠ [] → (path ++ [.node child] ∈ tree.paths ↔ path ∈ tree.paths ∧
    ∃ n r, path.getLast? = some (.reference n r) ∧ g.find? r.target = some child ∧
      child.id ∉ nodeIds path ∧ (nodeIds path).length < depth)
  /-- A cycle is shown where a reference leads back to an id on its way, and there is room. -/
  cycle : ∀ path id, path ++ [.cycle id] ∈ tree.paths ↔ path ∈ tree.paths ∧
    ∃ n r, path.getLast? = some (.reference n r) ∧ r.target = id ∧
      id ∈ nodeIds path ∧ (nodeIds path).length < depth
  deep : ∀ path, path ≠ [] → (path ++ [.deep] ∈ tree.paths ↔ path ∈ tree.paths ∧
    ∃ n r, path.getLast? = some (.reference n r) ∧ (nodeIds path).length = depth)

theorem topLabel_ne_reference {m : Node} {r : Reference} :
    .reference m r ≠ topLabel depth way n := by
  unfold topLabel
  split
  · simp
  · split <;> simp

theorem topLabel_ne_missing {r : Reference} : .missing r ≠ topLabel depth way n := by
  unfold topLabel
  split
  · simp
  · split <;> simp

/-- A label that is not the first one stands below a path. -/
theorem append_mem_paths_iff_of_ne {label : Label} (hlabel : label ≠ topLabel depth way n)
    {path : List Label} :
    path ++ [label] ∈ (g.sketch depth way n).paths ↔
      path ∈ (g.sketch depth way n).paths ∧ g.Below depth way path label := by
  rcases eq_or_ne path [] with rfl | hne
  · rw [List.nil_append, singleton_mem_paths_iff]
    exact iff_of_false hlabel fun h => ne_nil_of_mem_paths h.1 rfl
  · exact append_mem_paths_iff hne

/-- A reference of which more is shown leads to a node. -/
theorem exists_child_of_getLast? {path : List Label} {m : Node} {r : Reference}
    (hpath : path ∈ (g.sketch depth way n).paths)
    (hlast : path.getLast? = some (.reference m r)) : ∃ child, g.find? r.target = some child := by
  obtain ⟨init, rfl⟩ := List.getLast?_eq_some_iff.1 hlast
  cases ((append_mem_paths_iff_of_ne topLabel_ne_reference).1 hpath).2 with
  | reference _ _ hfind => exact ⟨_, hfind⟩
  | top _ _ hlabel => exact absurd hlabel topLabel_ne_reference

/-- The sketch of a node shows what is below it, in every graph. -/
theorem unfolds_sketch {root : Node} (hroot : root ∈ g.nodes) (depth : Nat) :
    g.Unfolds depth root (g.sketch depth [] root) where
  distinct := nodup_paths_sketch g depth [] root
  once path hpath := by
    obtain ⟨hnodup, hlength, hids⟩ := nodeIds_of_mem_paths hroot hpath
    exact ⟨hnodup, hlength, fun id hid => (hids id hid).2⟩
  top label := by simp [singleton_mem_paths_iff, topLabel]
  reference path n r := by
    rw [append_mem_paths_iff_of_ne topLabel_ne_reference]
    refine and_congr_right fun _ => ⟨fun hbelow => ?_, ?_⟩
    · cases hbelow with
      | reference hlast hr hfind => exact ⟨hlast, hr, _, hfind⟩
      | top _ _ hlabel => exact absurd hlabel topLabel_ne_reference
    · rintro ⟨hlast, hr, child, hfind⟩
      exact .reference hlast hr hfind
  missing path r := by
    rw [append_mem_paths_iff_of_ne topLabel_ne_missing]
    refine and_congr_right fun _ => ⟨fun hbelow => ?_, ?_⟩
    · cases hbelow with
      | missing hlast hr hfind => exact ⟨_, hlast, hr, hfind⟩
      | top _ _ hlabel => exact absurd hlabel topLabel_ne_missing
    · rintro ⟨n, hlast, hr, hfind⟩
      exact .missing hlast hr hfind
  node path child hne := by
    rw [append_mem_paths_iff hne]
    refine and_congr_right fun _ => ⟨fun hbelow => ?_, ?_⟩
    · cases hbelow with
      | top hlast hfind hlabel =>
        obtain ⟨hroom, hnew, rfl⟩ := topLabel_eq_node_iff.1 hlabel.symm
        rw [List.append_nil] at hnew
        exact ⟨_, _, hlast, hfind, hnew, by omega⟩
    · rintro ⟨n, r, hlast, hfind, hnew, hroom⟩
      refine .top hlast hfind (topLabel_eq_node_iff.2 ⟨by omega, ?_, rfl⟩).symm
      rwa [List.append_nil]
  cycle path id := by
    -- No id is on the way to the first node, so a cycle does not stand on top.
    have htop : .cycle id ≠ topLabel depth [] root := by
      intro h
      have hmem := (topLabel_eq_cycle_iff.1 h.symm).2.1
      cases hmem
    rw [append_mem_paths_iff_of_ne htop]
    refine and_congr_right fun hpath => ⟨fun hbelow => ?_, ?_⟩
    · cases hbelow with
      | top hlast hfind hlabel =>
        obtain ⟨hroom, hold, rfl⟩ := topLabel_eq_cycle_iff.1 hlabel.symm
        rw [List.append_nil] at hold
        exact ⟨_, _, hlast, (exists_of_find?_eq_some hfind).2.symm, hold, by omega⟩
    · rintro ⟨n, r, hlast, rfl, hold, hroom⟩
      obtain ⟨child, hfind⟩ := exists_child_of_getLast? hpath hlast
      have hid := (exists_of_find?_eq_some hfind).2
      refine .top hlast hfind (topLabel_eq_cycle_iff.2 ⟨by omega, ?_, hid⟩).symm
      rwa [List.append_nil, hid]
  deep path hne := by
    rw [append_mem_paths_iff hne]
    refine and_congr_right fun hpath => ⟨fun hbelow => ?_, ?_⟩
    · cases hbelow with
      | top hlast _ hlabel =>
        -- There are never more nodes than the depth, so without room there are exactly as many.
        have hroom := topLabel_eq_deep_iff.1 hlabel.symm
        have hlength := (nodeIds_of_mem_paths hroot hpath).2.1
        exact ⟨_, _, hlast, by omega⟩
    · rintro ⟨n, r, hlast, hlength⟩
      obtain ⟨child, hfind⟩ := exists_child_of_getLast? hpath hlast
      exact .top hlast hfind (topLabel_eq_deep_iff.2 (by omega)).symm

end Graph

end Workgraph
