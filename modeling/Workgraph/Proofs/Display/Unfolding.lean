import Workgraph.Proofs.Display.Layers
import Workgraph.Proofs.Display.Sketch
import Workgraph.Proofs.Graph.Reaching
/-!
# Workflows unfolded as trees

A graph is drawn as a tree whose branches are the sketches of the nodes at top level, in words, and
the only thing that can prevent it is a condition whose value cannot be written. If a workflow has
been loaded and the depth allows for more than its longest path of references, nothing is cut off:
the nodes in the tree stand for the paths of references from the nodes at top level, each path once
and in the order of the references (`drawn_unfolds`).
-/

namespace Workgraph

/-- A label below which the tree goes on. -/
def Label.goesOn : Label → Bool
  | node _ => true
  | reference _ _ => true
  | _ => false

/-- There are words for all references that are shown. -/
def Sketch.Written (sketch : Sketch) : Prop :=
  ∀ path ∈ sketch.paths, ∀ n r, .reference n r ∈ path → ∃ words, n.wordsAt r.place = .ok words

/-- The words for a reference of a node can only be missing because a value cannot be written. -/
theorem Node.wordsDefect?_of_mem {n : Node} {r : Reference} (hr : r ∈ n.references) :
    (∃ words, n.wordsAt r.place = .ok words ∧ n.wordsDefect? r.place = none) ∨
      n.wordsAt r.place = .error .longInteger ∧ n.wordsDefect? r.place = some .longInteger := by
  obtain ⟨words, hstems⟩ := mem_references_iff_stems.1 hr
  have hwords := hstems.wordsAt_eq
  rw [wordsDefect?, hwords]
  cases hstems with
  | unwritable => exact .inr ⟨rfl, rfl⟩
  | _ => exact .inl ⟨_, rfl, rfl⟩

namespace Graph

open Sketch

variable {g : Graph} {n : Node}

/-! ## What prevents a tree -/

/-- A leaf has no references that need words. -/
theorem written_of_paths {sketch : Sketch} {label : Label} (h : sketch.paths = [[label]])
    (hlabel : ∀ n r, label ≠ .reference n r) : sketch.Written := by
  intro path hpath n r hmem
  rw [h, List.mem_singleton] at hpath
  rw [hpath, List.mem_singleton] at hmem
  exact absurd hmem.symm (hlabel n r)

/-- The words that a node needs are those for its references that lead to nodes, and those that
these nodes need. -/
theorem written_sketch_succ_iff {depth : Nat} {way : List String} (hway : n.id ∉ way) :
    (g.sketch (depth + 1) way n).Written ↔
      ∀ r ∈ n.references, ∀ child, g.find? r.target = some child →
        (∃ words, n.wordsAt r.place = .ok words) ∧
          (g.sketch depth (n.id :: way) child).Written := by
  constructor
  · intro hwritten r hr child hfind
    have hbelow : ∀ rest, (rest = [] ∨ rest ∈ (g.sketch depth (n.id :: way) child).paths) →
        .node n :: .reference n r :: rest ∈ (g.sketch (depth + 1) way n).paths :=
      fun rest hrest => (mem_paths_succ_iff hway).2
        (.inr (.inr ⟨r, hr, child, hfind, rest, rfl, hrest⟩))
    refine ⟨hwritten _ (hbelow [] (.inl rfl)) n r (by simp), fun path hpath k r' hmem => ?_⟩
    exact hwritten _ (hbelow path (.inr hpath)) k r'
      (List.mem_cons_of_mem _ (List.mem_cons_of_mem _ hmem))
  · intro hall path hpath k r hmem
    rcases (mem_paths_succ_iff hway).1 hpath with
      rfl | ⟨r', hr', hfind, rfl⟩ | ⟨r', hr', child, hfind, rest, rfl, hrest⟩
    · simp at hmem
    · simp at hmem
    · obtain ⟨hwords, hwritten⟩ := hall r' hr' child hfind
      rw [List.mem_cons, List.mem_cons] at hmem
      rcases hmem with hmem | hmem | hmem
      · cases hmem
      · cases hmem
        exact hwords
      · rcases hrest with rfl | hrest
        · cases hmem
        · exact hwritten rest hrest k r hmem

/-- The first defect of a branch is a value that cannot be written, and there is one exactly if a
reference that is shown has no words. -/
theorem branchDefect?_eq : ∀ (depth : Nat) (way : List String) (n : Node),
    (g.sketch depth way n).Written ∧ g.branchDefect? depth way n = none ∨
      ¬ (g.sketch depth way n).Written ∧ g.branchDefect? depth way n = some .longInteger := by
  intro depth
  induction depth with
  | zero =>
    intro way n
    exact .inl ⟨written_of_paths rfl fun _ _ => by simp, rfl⟩
  | succ depth ih =>
    intro way n
    rw [branchDefect?]
    by_cases hway : n.id ∈ way
    · rw [if_pos (by simpa using hway)]
      exact .inl ⟨written_of_paths (paths_sketch_cut hway) fun _ _ => by simp, rfl⟩
    rw [if_neg (by simpa using hway), written_sketch_succ_iff hway]
    cases hfirst : n.references.findSome? fun r => (g.find? r.target).bind fun child =>
        (n.wordsDefect? r.place).or (branchDefect? g depth (n.id :: way) child) with
    | none =>
      rw [List.findSome?_eq_none_iff] at hfirst
      refine .inl ⟨fun r hr child hfind => ?_, rfl⟩
      have hnone := hfirst r hr
      rw [hfind, Option.bind_some, Option.or_eq_none_iff] at hnone
      constructor
      · rcases Node.wordsDefect?_of_mem hr with ⟨words, hwords, -⟩ | ⟨-, hdefect⟩
        · exact ⟨words, hwords⟩
        · rw [hdefect] at hnone
          cases hnone.1
      · rcases ih (n.id :: way) child with ⟨hwritten, -⟩ | ⟨-, hdefect⟩
        · exact hwritten
        · rw [hdefect] at hnone
          cases hnone.2
    | some d =>
      -- The first defect is that of a reference, or else that of the branch below it.
      obtain ⟨r, hr, hsome⟩ := List.exists_of_findSome?_eq_some hfirst
      obtain ⟨child, hfind, hor⟩ := Option.bind_eq_some_iff.1 hsome
      rcases Node.wordsDefect?_of_mem hr with ⟨words, -, hnone⟩ | ⟨herror, hdefect⟩
      · rw [hnone, Option.none_or] at hor
        rcases ih (n.id :: way) child with ⟨-, hdefect⟩ | ⟨hunwritten, hdefect⟩
        · rw [hdefect] at hor
          cases hor
        · rw [hdefect] at hor
          cases hor
          exact .inr ⟨fun hall => hunwritten (hall r hr child hfind).2, rfl⟩
      · rw [hdefect, Option.some_or] at hor
        cases hor
        refine .inr ⟨fun hall => ?_, rfl⟩
        obtain ⟨words, hwords⟩ := (hall r hr child hfind).1
        rw [herror] at hwords
        cases hwords

/-- A graph is drawn as its outline if there are words for all references that are shown. -/
theorem drawn_eq (g : Graph) (marks : Marks) (maxDepth : Int) (title : String) :
    ((∀ root ∈ g.roots, (g.sketch maxDepth.toNat [] root).Written) →
      g.drawn marks maxDepth title = .ok (g.outline marks maxDepth.toNat title)) ∧
    ((¬ ∀ root ∈ g.roots, (g.sketch maxDepth.toNat [] root).Written) →
      g.drawn marks maxDepth title = .error .longInteger) := by
  unfold drawn
  cases hfirst : g.roots.findSome? (g.branchDefect? maxDepth.toNat []) with
  | none =>
    rw [List.findSome?_eq_none_iff] at hfirst
    refine ⟨fun _ => rfl, fun h => absurd (fun root hroot => ?_) h⟩
    rcases branchDefect?_eq (g := g) maxDepth.toNat [] root with ⟨hwritten, -⟩ | ⟨-, hdefect⟩
    · exact hwritten
    · rw [hfirst root hroot] at hdefect
      cases hdefect
  | some d =>
    obtain ⟨root, hroot, hsome⟩ := List.exists_of_findSome?_eq_some hfirst
    rcases branchDefect?_eq (g := g) maxDepth.toNat [] root with ⟨-, hdefect⟩ | ⟨hwritten, hdefect⟩
    · rw [hsome] at hdefect
      cases hdefect
    · rw [hsome] at hdefect
      cases hdefect
      exact ⟨fun h => absurd (h root hroot) hwritten, fun _ => rfl⟩

/-- The words above the tree of a graph. -/
def heading (g : Graph) (title : String) : String :=
  Markup.styled "bold" (Markup.escape title) ++ " (" ++ digitsText g.nodes.length ++ " nodes)"

/-- The branches of an outline are the sketches of the nodes at top level, in words. -/
theorem outline_eq_sketches (hnodes : g.nodes ≠ []) (marks : Marks) (depth : Nat) (title : String) :
    g.outline marks depth title =
      .branch (g.heading title) ((g.roots.map (g.sketch depth [])).map (Sketch.outline marks)) := by
  rw [Graph.outline, if_neg (mt List.isEmpty_iff.1 hnodes), List.map_map]
  refine congrArg (Outline.branch _) (List.map_congr_left fun root _ => ?_)
  exact branchOf_eq_outline g marks depth [] root

/-! ## Visits -/

/-- What is visited along a reference. -/
def visitsAlong (g : Graph) (depth : Nat) (way : List String) (r : Reference) :
    List (List Reference × Node) :=
  match g.find? r.target with
  | none => []
  | some child => (g.sketch depth way child).visits.map fun v => (r :: v.1, v.2)

theorem visits_sketch_succ {depth : Nat} {way : List String} (h : n.id ∉ way) :
    (g.sketch (depth + 1) way n).visits =
      ([], n) :: n.references.flatMap (g.visitsAlong depth (n.id :: way)) := by
  have hfirst : visit? [.node n] = some ([], n) := rfl
  rw [visits, paths_sketch_succ h, List.filterMap_cons_some hfirst, List.filterMap_map,
    List.filterMap_flatMap]
  refine congrArg (([], n) :: ·) (List.flatMap_congr fun r _ => ?_)
  rw [referencePaths, visitsAlong]
  cases g.find? r.target with
  | none => rfl
  | some child =>
    have hreference : (visit? ∘ (Label.node n :: ·)) [.reference n r] = none := rfl
    simp only [visits]
    rw [List.filterMap_cons_none hreference, List.filterMap_map, List.map_filterMap]
    exact List.filterMap_congr fun path _ => visit?_cons_cons n r path

/-- A path of references from a node comes before another: it is where the other goes on from, or
the references in which they differ come in this order. -/
inductive Precedes (g : Graph) : Node → List Reference → List Reference → Prop
  | shorter {n : Node} {r : Reference} {rest : List Reference} : Precedes g n [] (r :: rest)
  | sooner {n : Node} {r r' : Reference} {rest rest' : List Reference} :
      [r, r'].Sublist n.references → Precedes g n (r :: rest) (r' :: rest')
  | later {n child : Node} {r : Reference} {rest rest' : List Reference} :
      g.find? r.target = some child → Precedes g child rest rest' →
      Precedes g n (r :: rest) (r :: rest')

theorem Precedes.ne {way way' : List Reference} (h : g.Precedes n way way') : way ≠ way' := by
  induction h with
  | shorter => exact (List.cons_ne_nil _ _).symm
  | @sooner n r r' rest rest' hsublist =>
    have hreferences : n.references.Nodup := n.nodup_places.of_map Reference.place
    have hnodup := hreferences.sublist hsublist
    intro heq
    rw [(List.cons.inj heq).1] at hnodup
    simp at hnodup
  | later _ _ ih => exact fun heq => ih (List.cons.inj heq).2

/-- A tree with a branch for each path of references from a node, in order. -/
structure ShowsPaths (g : Graph) (root : Node) (tree : Sketch) : Prop where
  /-- Nothing is cut off. -/
  whole : ∀ path ∈ tree.paths, ∀ label ∈ path, label.goesOn = true
  visits_iff : ∀ way m, (way, m) ∈ tree.visits ↔ g.Follows root way m
  once : (tree.visits.map Prod.fst).Nodup
  inOrder : tree.visits.Pairwise fun v v' => g.Precedes root v.1 v'.1

theorem visitsAlong_eq {depth : Nat} {way : List String} {r : Reference} {child : Node}
    (hfind : g.find? r.target = some child) :
    g.visitsAlong depth way r =
      (g.sketch depth way child).visits.map fun v => (r :: v.1, v.2) := by
  rw [visitsAlong, hfind]

section Children

variable {depth : Nat} {way : List String} (hway : n.id ∉ way)
  (hchild : ∀ r ∈ n.references, ∃ child, g.find? r.target = some child ∧
    g.ShowsPaths child (g.sketch depth (n.id :: way) child))

include hchild

/-- What is visited along a reference has it first. -/
theorem exists_of_mem_visitsAlong {r : Reference} (hr : r ∈ n.references)
    {v : List Reference × Node} (hv : v ∈ g.visitsAlong depth (n.id :: way) r) :
    ∃ rest, v.1 = r :: rest := by
  obtain ⟨child, hfind, -⟩ := hchild r hr
  rw [visitsAlong_eq hfind] at hv
  obtain ⟨u, -, rfl⟩ := List.mem_map.1 hv
  exact ⟨u.1, rfl⟩

include hway

/-- Nothing is cut off below a node if nothing is cut off below the nodes to which it refers. -/
theorem goesOn_of_mem_paths {path : List Label}
    (hpath : path ∈ (g.sketch (depth + 1) way n).paths) {label : Label} (hlabel : label ∈ path) :
    label.goesOn = true := by
  rcases (mem_paths_succ_iff hway).1 hpath with
    rfl | ⟨r, hr, hfind, rfl⟩ | ⟨r, hr, child, hfind, rest, rfl, hrest⟩
  · rw [List.mem_singleton.1 hlabel]
    rfl
  · obtain ⟨child, hsome, -⟩ := hchild r hr
    rw [hfind] at hsome
    cases hsome
  · rw [List.mem_cons, List.mem_cons] at hlabel
    rcases hlabel with rfl | rfl | hlabel
    · rfl
    · rfl
    · obtain ⟨child', hsome, hshows⟩ := hchild r hr
      obtain rfl := Option.some.inj (hfind.symm.trans hsome)
      rcases hrest with rfl | hrest
      · cases hlabel
      · exact hshows.whole rest hrest label hlabel

theorem mem_visits_succ_iff {path : List Reference} {m : Node} :
    (path, m) ∈ (g.sketch (depth + 1) way n).visits ↔ g.Follows n path m := by
  rw [visits_sketch_succ hway, List.mem_cons, List.mem_flatMap]
  constructor
  · rintro (heq | ⟨r, hr, hmem⟩)
    · cases heq
      exact .stop n
    · obtain ⟨child, hfind, hshows⟩ := hchild r hr
      rw [visitsAlong_eq hfind] at hmem
      obtain ⟨⟨rest, last⟩, hrest, heq⟩ := List.mem_map.1 hmem
      cases heq
      exact .step hr hfind ((hshows.visits_iff rest last).1 hrest)
  · intro hpath
    cases path with
    | nil =>
      rw [follows_nil_iff.1 hpath]
      exact .inl rfl
    | cons r rest =>
      obtain ⟨hr, child, hfind, hrest⟩ := follows_cons_iff.1 hpath
      obtain ⟨child', hsome, hshows⟩ := hchild r hr
      obtain rfl := Option.some.inj (hfind.symm.trans hsome)
      refine .inr ⟨r, hr, ?_⟩
      rw [visitsAlong_eq hfind]
      exact List.mem_map.2 ⟨(rest, m), (hshows.visits_iff rest m).2 hrest, rfl⟩

theorem pairwise_visits_succ : (g.sketch (depth + 1) way n).visits.Pairwise
    fun v v' => g.Precedes n v.1 v'.1 := by
  rw [visits_sketch_succ hway, List.pairwise_cons, List.pairwise_flatMap]
  refine ⟨?_, ?_, ?_⟩
  · intro v hv
    obtain ⟨r, hr, hv⟩ := List.mem_flatMap.1 hv
    obtain ⟨rest, hrest⟩ := exists_of_mem_visitsAlong hchild hr hv
    rw [hrest]
    exact .shorter
  · intro r hr
    obtain ⟨child, hfind, hshows⟩ := hchild r hr
    rw [visitsAlong_eq hfind, List.pairwise_map]
    exact hshows.inOrder.imp fun hbefore => .later hfind hbefore
  -- A pair as a sublist is what "before" means for references.
  · rw [List.pairwise_iff_forall_sublist]
    intro r r' hsublist v hv v' hv'
    have hr : r ∈ n.references := hsublist.subset List.mem_cons_self
    have hr' : r' ∈ n.references := hsublist.subset (List.mem_cons_of_mem _ List.mem_cons_self)
    obtain ⟨rest, hrest⟩ := exists_of_mem_visitsAlong hchild hr hv
    obtain ⟨rest', hrest'⟩ := exists_of_mem_visitsAlong hchild hr' hv'
    rw [hrest, hrest']
    exact .sooner hsublist

theorem showsPaths_sketch_succ : g.ShowsPaths n (g.sketch (depth + 1) way n) where
  whole _ hpath _ hlabel := goesOn_of_mem_paths hway hchild hpath hlabel
  visits_iff _ _ := mem_visits_succ_iff hway hchild
  once := List.pairwise_map.2 ((pairwise_visits_succ hway hchild).imp Precedes.ne)
  inOrder := pairwise_visits_succ hway hchild

end Children

/-- In a sound workflow the sketch of a node shows all paths if the depth allows for more than the
longest of them. -/
theorem Sound.showsPaths_sketch (h : g.Sound) :
    ∀ {depth : Nat} {way : List String} {n : Node}, n ∈ g.nodes → g.Chain way n.id →
      (∀ path m, g.Follows n path m → path.length < depth) →
        g.ShowsPaths n (g.sketch depth way n) := by
  intro depth
  induction depth with
  | zero =>
    intro way n _ _ hdepth
    exact absurd (hdepth [] n (.stop n)) (Nat.lt_irrefl 0)
  | succ depth ih =>
    intro way n hn hchain hdepth
    -- The ids on the way make a chain, and no chain of a sound workflow meets an id again.
    refine showsPaths_sketch_succ (hchain.not_mem h) fun r hr => ?_
    have htarget : r.target ∈ n.targets := List.mem_map_of_mem hr
    obtain ⟨child, hfind⟩ := find?_isSome (h.resolved n hn r.target htarget)
    obtain ⟨hmem, hid⟩ := exists_of_find?_eq_some hfind
    have hlonger := hchain.cons h hn rfl htarget
    rw [← hid] at hlonger
    refine ⟨child, hfind, ih hmem hlonger fun path m hpath => ?_⟩
    exact Nat.lt_of_succ_lt_succ (hdepth (r :: path) m (.step hr hfind hpath))

/-- **Graphs are drawn as their references unfold.** Whatever the graph and the depth, the tree has
a branch for each node at top level, and what stands below a branch is told by `Unfolds`: no way has
two nodes of one id, and a cycle is shown exactly where a reference leads back to an id on its way
before the depth is used up. A graph of which a condition is shown whose value cannot be written has
no tree. If the graph has been loaded and the depth is greater than the length of its longest path,
nothing is cut off, and the nodes in the tree are the paths of references from the nodes at top
level, in order and each once; so every node is in the tree. -/
theorem drawn_unfolds (g : Graph) (marks : Marks) (maxDepth : Int) (title : String) :
    ((∀ root ∈ g.roots, (g.sketch maxDepth.toNat [] root).Written) →
        g.drawn marks maxDepth title = .ok (g.outline marks maxDepth.toNat title)) ∧
      ((¬ ∀ root ∈ g.roots, (g.sketch maxDepth.toNat [] root).Written) →
        g.drawn marks maxDepth title = .error .longInteger) ∧
      (g.nodes ≠ [] → g.outline marks maxDepth.toNat title = .branch (g.heading title)
        ((g.roots.map (g.sketch maxDepth.toNat [])).map (Sketch.outline marks))) ∧
      (∀ root ∈ g.roots, g.Unfolds maxDepth.toNat root (g.sketch maxDepth.toNat [] root)) ∧
      ∀ v, load v = .ok g →
        (∀ n ∈ g.nodes, ∀ path m, g.Follows n path m → (path.length : Int) < maxDepth) →
          (∀ root ∈ g.roots, g.ShowsPaths root (g.sketch maxDepth.toNat [] root)) ∧
            ∀ n ∈ g.nodes, ∃ root ∈ g.roots, ∃ path,
              (path, n) ∈ (g.sketch maxDepth.toNat [] root).visits := by
  obtain ⟨hwritten, hunwritten⟩ := g.drawn_eq marks maxDepth title
  refine ⟨hwritten, hunwritten, fun hnodes => outline_eq_sketches hnodes marks _ title,
    fun root hroot => unfolds_sketch (roots_sublist.subset hroot) _, fun v hload hdepth => ?_⟩
  have hsound := (sound_of_load hload).2
  have hshows : ∀ root ∈ g.roots, g.ShowsPaths root (g.sketch maxDepth.toNat [] root) := by
    intro root hroot
    have hmem := roots_sublist.subset hroot
    refine hsound.showsPaths_sketch hmem (.nil ⟨root, hmem, rfl⟩) fun path m hpath => ?_
    have hlt := hdepth root hmem path m hpath
    omega
  refine ⟨hshows, fun n hn => ?_⟩
  obtain ⟨root, hroot, hway⟩ := hsound.exists_root hn
  obtain ⟨path, hpath⟩ := hsound.exists_follows hn hway (roots_sublist.subset hroot) rfl
  exact ⟨root, hroot, path, ((hshows root hroot).visits_iff path n).2 hpath⟩

/-- The nodes in the tree of this workflow are the five paths from its first node. They have at most
two references, so three nodes below each other are enough. -/
theorem shortcutNodes_unfolded : ∃ g, load (.list shortcutNodes) = .ok g ∧
    (∀ n ∈ g.nodes, ∀ path m, g.Follows n path m → (path.length : Int) < 3) ∧
    (g.roots.map fun root => (g.sketch 3 [] root).visits.map fun v =>
        (v.1.map Reference.place, v.2.id)) =
      [[([], "begin"), (["paths[0].nodeId"], "last"), (["paths[1].nodeId"], "check"),
        (["paths[1].nodeId", "nextNodeId"], "last"), (["paths[2].nodeId"], "last")]] ∧
    ∀ root ∈ g.roots, g.ShowsPaths root (g.sketch 3 [] root) := by
  have hany : (load (.list shortcutNodes)).toOption.any (fun g => g.nodes.length = 3 ∧
      (g.roots.map fun root => (g.sketch 3 [] root).visits.map fun v =>
          (v.1.map Reference.place, v.2.id)) =
        [[([], "begin"), (["paths[0].nodeId"], "last"), (["paths[1].nodeId"], "check"),
          (["paths[1].nodeId", "nextNodeId"], "last"), (["paths[2].nodeId"], "last")]]) = true := by
    decide +kernel
  obtain ⟨g, hload, hcheck⟩ := exists_load_of_any hany
  obtain ⟨hlength, hvisits⟩ := of_decide_eq_true hcheck
  have hsound := (sound_of_load hload).2
  have hdepth : ∀ n ∈ g.nodes, ∀ path m, g.Follows n path m → (path.length : Int) < 3 := by
    intro n hn path m hpath
    have hlt := hsound.length_lt_of_follows hn hpath
    omega
  obtain ⟨-, -, -, -, hwhole⟩ := drawn_unfolds g .none 3 "workflow"
  exact ⟨g, hload, hdepth, hvisits, (hwhole _ hload hdepth).1⟩

/-- A workflow with a condition on a number that has one digit more than are written. -/
def endlessNodes : List Value :=
  [.object [("id", .text "check"), ("type", .text "condition"),
      ("config", .object [("conditions", .list [.object [("field", .text "n"),
        ("value", .int ((10 ^ maxNumeralDigits : Nat) : Int)), ("thenNodeId", .text "end")]])])],
    .object [("id", .text "end"), ("type", .text "output")]]

/-- It is loaded and its paths are short, and yet it has no tree. -/
theorem endlessNodes_undrawn : ∃ g, load (.list endlessNodes) = .ok g ∧
    (∀ n ∈ g.nodes, ∀ path m, g.Follows n path m → path.length < standardDepth) ∧
    g.drawn .none standardDepth "workflow" = .error .longInteger := by
  have hany : (load (.list endlessNodes)).toOption.any (fun g => g.nodes.length = 2 ∧
      (g.drawn .none standardDepth "workflow").toOption.isNone = true) = true := by decide +kernel
  obtain ⟨g, hload, hcheck⟩ := exists_load_of_any hany
  obtain ⟨hlength, hnone⟩ := of_decide_eq_true hcheck
  refine ⟨g, hload, fun n hn path m hpath => ?_, ?_⟩
  · have hlt := (sound_of_load hload).2.length_lt_of_follows hn hpath
    rw [hlength] at hlt
    exact hlt.trans (by decide)
  · obtain ⟨hwritten, hunwritten⟩ := g.drawn_eq .none standardDepth "workflow"
    refine hunwritten fun h => ?_
    rw [hwritten h] at hnone
    cases hnone

end Graph

end Workgraph
