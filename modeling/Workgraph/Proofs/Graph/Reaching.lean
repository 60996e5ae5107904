import Mathlib.Data.Fintype.Card
import Mathlib.Data.Set.Finite.Basic
import Workgraph.Proofs.Graph.Loading
/-!
# What a workflow reaches from its top level

Nothing in a workflow that has been loaded is dead. The references of a sound workflow have no cycle
and there are finitely many nodes, so a walk against the references ends, and it ends at a node to
which no node refers: at one that runs at top level (`every_node_is_reached`).
-/

namespace Workgraph

namespace Graph

variable {g : Graph}

/-! ## Nodes at top level -/

theorem mem_referenced {id : String} : id ∈ g.referenced ↔ ∃ a, g.Refers a id := by
  unfold referenced Refers
  rw [List.mem_flatMap]
  constructor
  · rintro ⟨n, hn, hid⟩
    exact ⟨n.id, n, hn, rfl, hid⟩
  · rintro ⟨a, n, hn, -, hid⟩
    exact ⟨n, hn, hid⟩

theorem roots_sublist : g.roots.Sublist g.nodes := by
  unfold roots
  cases g.nodes with
  | nil => exact List.Sublist.refl []
  | cons entry rest => exact List.filter_sublist.cons_cons entry

theorem head?_roots : g.roots.head? = g.nodes.head? := by
  unfold roots
  cases g.nodes <;> rfl

/-- Behind the first node, those run at top level to which no node refers. -/
theorem Sound.mem_roots_iff {entry n : Node} {rest : List Node} (h : g.Sound)
    (hnodes : g.nodes = entry :: rest) (hn : n ∈ rest) :
    n ∈ g.roots ↔ ∀ a, ¬ g.Refers a n.id := by
  have hdistinct := h.distinct
  rw [hnodes, List.map_cons, List.nodup_cons] at hdistinct
  have hne : n.id ≠ entry.id := fun heq => hdistinct.1 (heq ▸ List.mem_map_of_mem hn)
  have hentry : n ≠ entry := fun heq => hne (congrArg Node.id heq)
  have hroots : g.roots =
      entry :: rest.filter fun n => !g.referenced.contains n.id && n.id ≠ entry.id := by
    rw [roots, hnodes]
  rw [hroots, List.mem_cons, List.mem_filter, ← not_exists, ← mem_referenced]
  simp [hentry, hn, hne]

/-! ## Walks against the references -/

/-- A walk against the references of a sound workflow ends. -/
theorem Sound.wellFounded_refers (h : g.Sound) : WellFounded
    fun a b : {id // id ∈ g.nodes.map Node.id} => Relation.TransGen g.Refers a.1 b.1 := by
  have hfinite : Finite {id // id ∈ g.nodes.map Node.id} := List.finite_toSet _
  have htrans : IsTrans {id // id ∈ g.nodes.map Node.id}
      fun a b => Relation.TransGen g.Refers a.1 b.1 := ⟨fun _ _ _ hab hbc => hab.trans hbc⟩
  have hirrefl : Std.Irrefl
      fun a b : {id // id ∈ g.nodes.map Node.id} => Relation.TransGen g.Refers a.1 b.1 :=
    ⟨fun a hcycle => h.acyclic a.1 hcycle⟩
  exact Finite.wellFounded_of_trans_of_irrefl _

/-- A node to which no node refers runs at top level. -/
theorem Sound.mem_roots_of_free (h : g.Sound) {n : Node} (hn : n ∈ g.nodes)
    (hfree : ∀ a, ¬ g.Refers a n.id) : n ∈ g.roots := by
  cases hnodes : g.nodes with
  | nil =>
    rw [hnodes] at hn
    cases hn
  | cons entry rest =>
    rw [hnodes] at hn
    rcases List.mem_cons.1 hn with rfl | hrest
    · rw [roots, hnodes]
      exact List.mem_cons_self
    · exact (h.mem_roots_iff hnodes hrest).2 hfree

/-- Every node is reached from one that runs at top level. -/
theorem Sound.exists_root (h : g.Sound) {n : Node} (hn : n ∈ g.nodes) :
    ∃ root ∈ g.roots, Relation.ReflTransGen g.Refers root.id n.id := by
  have key : ∀ id : {id // id ∈ g.nodes.map Node.id},
      ∃ root ∈ g.roots, Relation.ReflTransGen g.Refers root.id id.1 := by
    intro id
    induction id using h.wellFounded_refers.induction with
    | _ id ih =>
      obtain ⟨id, hid⟩ := id
      obtain ⟨m, hm, rfl⟩ := List.mem_map.1 hid
      by_cases hfree : ∀ a, ¬ g.Refers a m.id
      · exact ⟨m, h.mem_roots_of_free hm hfree, .refl⟩
      -- A node that refers to this one is nearer to the top level.
      · obtain ⟨a, ha⟩ := not_forall_not.1 hfree
        obtain ⟨k, hk, rfl, -⟩ := id ha
        obtain ⟨root, hroot, hway⟩ := ih ⟨k.id, List.mem_map_of_mem hk⟩ (.single ha)
        exact ⟨root, hroot, hway.tail ha⟩
  exact key ⟨n.id, List.mem_map_of_mem hn⟩

/-- **Nothing in a workflow that has been loaded is dead.** Every node is reached along references
from one that runs at top level. Those nodes are some of the nodes, in their order and with distinct
ids: the first node, and of the others exactly the ones to which no node refers. -/
theorem every_node_is_reached (v : Value) (g : Graph) (hload : load v = .ok g) :
    (∀ n ∈ g.nodes, ∃ root ∈ g.roots, Relation.ReflTransGen g.Refers root.id n.id) ∧
      g.roots.Sublist g.nodes ∧ (g.roots.map Node.id).Nodup ∧
      ∃ entry rest, g.nodes = entry :: rest ∧ g.roots.head? = some entry ∧
        ∀ n ∈ rest, n ∈ g.roots ↔ ∀ a, ¬ g.Refers a n.id := by
  have hsound := (sound_of_load hload).2
  obtain ⟨entry, rest, hnodes⟩ := List.exists_cons_of_ne_nil hsound.nonempty
  refine ⟨fun n hn => hsound.exists_root hn, roots_sublist,
    hsound.distinct.sublist (roots_sublist.map Node.id), entry, rest, hnodes, ?_, ?_⟩
  · rw [head?_roots, hnodes]
    rfl
  · exact fun n hn => hsound.mem_roots_iff hnodes hn

/-- A workflow whose first node is referred to by the third one. -/
def detourNodes : List Value :=
  [.object [("id", .text "report"), ("type", .text "output")],
    .object [("id", .text "begin"), ("type", .text "trigger"),
      ("config", .object [("nextNodeId", .text "check")])],
    .object [("id", .text "check"), ("type", .text "condition"),
      ("config", .object [("elseNodeId", .text "report")])]]

/-- It is loaded, its first two nodes run at top level, and every node is reached from one of
them. -/
theorem detourNodes_reached : ∃ g, load (.list detourNodes) = .ok g ∧
    g.roots.map Node.id = ["report", "begin"] ∧
    ∀ n ∈ g.nodes, ∃ root ∈ g.roots, Relation.ReflTransGen g.Refers root.id n.id := by
  have hany : (load (.list detourNodes)).toOption.any
      (fun g => g.roots.map Node.id = ["report", "begin"]) = true := by decide +kernel
  obtain ⟨g, hload, hroots⟩ := exists_load_of_any hany
  exact ⟨g, hload, of_decide_eq_true hroots, (every_node_is_reached _ g hload).1⟩

end Graph

end Workgraph
