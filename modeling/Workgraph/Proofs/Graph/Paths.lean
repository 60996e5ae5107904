import Workgraph.Proofs.Engine.Nesting
import Workgraph.Proofs.Graph.CycleReport
/-!
# Paths of references

A path follows references from node to node, each to the node that is found under its target, which
is the first one if several have that id. The depth of a node is the number of references on a
longest path that ends there, wherever it begins. In a sound workflow a path visits no id twice, so
all paths are shorter than the list of nodes (`Sound.length_lt_of_follows`).
-/

namespace Workgraph

namespace Graph

/-- References that lead from a node to another, one after the other. -/
inductive Follows (g : Graph) : Node → List Reference → Node → Prop
  | stop (n : Node) : Follows g n [] n
  | step {n m last : Node} {r : Reference} {rest : List Reference} :
      r ∈ n.references → g.find? r.target = some m → Follows g m rest last →
      Follows g n (r :: rest) last

/-- The number of references on a longest path that ends at a node. -/
structure IsDepth (g : Graph) (n : Node) (k : Nat) : Prop where
  attained : ∃ start ∈ g.nodes, ∃ way, g.Follows start way n ∧ way.length = k
  longest : ∀ start ∈ g.nodes, ∀ way, g.Follows start way n → way.length ≤ k

variable {g : Graph} {n m : Node}

theorem follows_nil_iff : g.Follows n [] m ↔ m = n := by
  constructor
  · rintro ⟨⟩
    rfl
  · rintro rfl
    exact .stop m

theorem follows_cons_iff {r : Reference} {rest : List Reference} :
    g.Follows n (r :: rest) m ↔
      r ∈ n.references ∧ ∃ child, g.find? r.target = some child ∧ g.Follows child rest m := by
  constructor
  · rintro (_ | ⟨hr, hfind, hrest⟩)
    exact ⟨hr, _, hfind, hrest⟩
  · rintro ⟨hr, child, hfind, hrest⟩
    exact .step hr hfind hrest

/-- A path goes on with a reference of the node where it ends. -/
theorem Follows.snoc {way : List Reference} (h : g.Follows n way m) {r : Reference} {child : Node}
    (hr : r ∈ m.references) (hfind : g.find? r.target = some child) :
    g.Follows n (way ++ [r]) child := by
  induction h with
  | stop n => exact .step hr hfind (.stop child)
  | step hfirst hnext _ ih => exact .step hfirst hnext (ih hr)

/-- A path that is not empty ends with a reference of the node before its end. -/
theorem exists_of_follows_snoc {way : List Reference} {r : Reference}
    (h : g.Follows n (way ++ [r]) m) :
    ∃ k, g.Follows n way k ∧ r ∈ k.references ∧ g.find? r.target = some m := by
  induction way generalizing n with
  | nil =>
    obtain ⟨hr, child, hfind, hend⟩ := follows_cons_iff.1 h
    obtain rfl := follows_nil_iff.1 hend
    exact ⟨n, .stop n, hr, hfind⟩
  | cons first rest ih =>
    obtain ⟨hfirst, child, hfind, hrest⟩ := follows_cons_iff.1 h
    obtain ⟨k, hk, hr, hend⟩ := ih hrest
    exact ⟨k, .step hfirst hfind hk, hr, hend⟩

theorem Follows.mem_nodes {way : List Reference} (h : g.Follows n way m) (hn : n ∈ g.nodes) :
    m ∈ g.nodes := by
  induction h with
  | stop n => exact hn
  | step _ hfind _ ih => exact ih (exists_of_find?_eq_some hfind).1

/-- A reference names the id of the node to which it leads. -/
theorem refers_of_reference (hn : n ∈ g.nodes) {r : Reference} (hr : r ∈ n.references)
    (hfind : g.find? r.target = some m) : g.Refers n.id m.id := by
  rw [(exists_of_find?_eq_some hfind).2]
  exact ⟨n, hn, rfl, List.mem_map_of_mem hr⟩

/-- In a sound workflow the ids to which references lead are reached by paths. -/
theorem Sound.exists_follows (h : g.Sound) (hm : m ∈ g.nodes) {a : String}
    (hway : Relation.ReflTransGen g.Refers a m.id) (hn : n ∈ g.nodes) (hid : n.id = a) :
    ∃ way, g.Follows n way m := by
  -- By induction from the front, since a path begins with its first reference.
  induction hway using Relation.ReflTransGen.head_induction_on generalizing n with
  | refl => exact ⟨[], follows_nil_iff.2 (List.inj_on_of_nodup_map h.distinct hm hn hid.symm)⟩
  | head hstep _ ih =>
    obtain ⟨k, hk, hkid, htarget⟩ := hstep
    obtain rfl := List.inj_on_of_nodup_map h.distinct hn hk (hid.trans hkid.symm)
    obtain ⟨r, hr, rfl⟩ := List.mem_map.1 htarget
    obtain ⟨child, hfind⟩ := find?_isSome (h.resolved n hn _ htarget)
    obtain ⟨hchild, hchildId⟩ := exists_of_find?_eq_some hfind
    obtain ⟨way, hrest⟩ := ih hchild hchildId
    exact ⟨r :: way, .step hr hfind hrest⟩

/-- A path makes a chain of the ids before its end. -/
theorem Sound.exists_chain (h : g.Sound) {way : List Reference} (hfollows : g.Follows n way m) :
    ∀ {chain : List String}, n ∈ g.nodes → g.Chain chain n.id →
      ∃ chain', chain'.length = chain.length + way.length ∧ g.Chain chain' m.id := by
  induction hfollows with
  | stop n => exact fun _ hchain => ⟨_, rfl, hchain⟩
  | step hr hfind _ ih =>
    intro chain hn hchain
    obtain ⟨hchild, hid⟩ := exists_of_find?_eq_some hfind
    have hlonger := hchain.cons h hn rfl (List.mem_map_of_mem hr)
    rw [← hid] at hlonger
    obtain ⟨chain', hlength, hchain'⟩ := ih hchild hlonger
    refine ⟨chain', ?_, hchain'⟩
    rw [hlength, List.length_cons, List.length_cons]
    omega

/-- Paths of a sound workflow are shorter than the list of its nodes. -/
theorem Sound.length_lt_of_follows (h : g.Sound) (hn : n ∈ g.nodes) {way : List Reference}
    (hfollows : g.Follows n way m) : way.length < g.nodes.length := by
  obtain ⟨chain, hlength, hchain⟩ := h.exists_chain hfollows hn (.nil ⟨n, hn, rfl⟩)
  have hlt := hchain.length_lt h
  rw [hlength, List.length_nil] at hlt
  omega

theorem IsDepth.unique {j k : Nat} (hj : g.IsDepth n j) (hk : g.IsDepth n k) : j = k := by
  obtain ⟨a, ha, way, hway, rfl⟩ := hj.attained
  obtain ⟨b, hb, way', hway', rfl⟩ := hk.attained
  exact le_antisymm (hk.longest a ha way hway) (hj.longest b hb way' hway')

/-- A bound on the paths that end at a node is a bound on its depth, which it has. -/
theorem exists_isDepth_of_le (hn : n ∈ g.nodes) {k : Nat}
    (hbound : ∀ start ∈ g.nodes, ∀ way, g.Follows start way n → way.length ≤ k) :
    ∃ j ≤ k, g.IsDepth n j := by
  induction k with
  | zero => exact ⟨0, le_rfl, ⟨n, hn, [], .stop n, rfl⟩, hbound⟩
  | succ k ih =>
    -- The bound is attained, or it can be lowered.
    by_cases hlong : ∃ start ∈ g.nodes, ∃ way, g.Follows start way n ∧ way.length = k + 1
    · exact ⟨k + 1, le_rfl, hlong, hbound⟩
    · have hshorter : ∀ start ∈ g.nodes, ∀ way, g.Follows start way n → way.length ≤ k := by
        intro start hstart way hway
        have hne : way.length ≠ k + 1 := fun heq => hlong ⟨start, hstart, way, hway, heq⟩
        have hle := hbound start hstart way hway
        omega
      obtain ⟨j, hj, hdepth⟩ := ih hshorter
      exact ⟨j, hj.trans k.le_succ, hdepth⟩

/-- Every node of a sound workflow has a depth. -/
theorem Sound.exists_isDepth (h : g.Sound) (hn : n ∈ g.nodes) :
    ∃ k < g.nodes.length, g.IsDepth n k := by
  have hbound : ∀ start ∈ g.nodes, ∀ way, g.Follows start way n →
      way.length ≤ g.nodes.length - 1 := by
    intro start hstart way hway
    have hlt := h.length_lt_of_follows hstart hway
    omega
  obtain ⟨k, hk, hdepth⟩ := exists_isDepth_of_le hn hbound
  have hpos : 0 < g.nodes.length := List.length_pos_of_mem hn
  exact ⟨k, by omega, hdepth⟩

/-- In a sound workflow a node that is referred to by its id is reached by that reference. -/
theorem Sound.exists_reference (h : g.Sound) (hm : m ∈ g.nodes) {a : String}
    (hrefers : g.Refers a m.id) :
    ∃ n ∈ g.nodes, n.id = a ∧ ∃ r ∈ n.references, g.find? r.target = some m := by
  obtain ⟨n, hn, hid, htarget⟩ := hrefers
  obtain ⟨r, hr, hrid⟩ := List.mem_map.1 htarget
  refine ⟨n, hn, hid, r, hr, ?_⟩
  rw [hrid]
  exact h.find?_id hm

/-- Of depth zero are the nodes to which no node refers. -/
theorem Sound.isDepth_zero_iff (h : g.Sound) (hm : m ∈ g.nodes) :
    g.IsDepth m 0 ↔ ∀ a, ¬ g.Refers a m.id := by
  constructor
  · intro hdepth a hrefers
    obtain ⟨n, hn, -, r, hr, hfind⟩ := h.exists_reference hm hrefers
    have hle := hdepth.longest n hn [r] (.step hr hfind (.stop m))
    simp at hle
  · intro hfree
    refine ⟨⟨m, hm, [], .stop m, rfl⟩, ?_⟩
    intro start hstart way hway
    induction way using List.reverseRecOn with
    | nil => exact le_rfl
    | append_singleton way r _ =>
      obtain ⟨k, hk, hr, hfind⟩ := exists_of_follows_snoc hway
      exact absurd (refers_of_reference (hk.mem_nodes hstart) hr hfind) (hfree k.id)

/-- A node is one step deeper than the deepest of the nodes that refer to it. -/
theorem Sound.isDepth_succ_iff (h : g.Sound) (hm : m ∈ g.nodes) {k : Nat} :
    g.IsDepth m (k + 1) ↔ (∃ n ∈ g.nodes, g.Refers n.id m.id ∧ g.IsDepth n k) ∧
      ∀ n ∈ g.nodes, g.Refers n.id m.id → ∃ j ≤ k, g.IsDepth n j := by
  constructor
  · intro hdepth
    -- Every path to a node that refers to it goes on to it with one reference more.
    have hbefore : ∀ n ∈ g.nodes, g.Refers n.id m.id → ∀ start ∈ g.nodes, ∀ way,
        g.Follows start way n → way.length ≤ k := by
      intro n hn hrefers start hstart way hway
      obtain ⟨n', hn', hid, r, hr, hfind⟩ := h.exists_reference hm hrefers
      obtain rfl := List.inj_on_of_nodup_map h.distinct hn hn' hid.symm
      have hle := hdepth.longest start hstart _ (hway.snoc hr hfind)
      rw [List.length_append, List.length_singleton] at hle
      omega
    refine ⟨?_, fun n hn hrefers => exists_isDepth_of_le hn (hbefore n hn hrefers)⟩
    obtain ⟨start, hstart, way, hway, hlength⟩ := hdepth.attained
    cases way using List.reverseRecOn with
    | nil => simp at hlength
    | append_singleton way r =>
      obtain ⟨n, hn, hr, hfind⟩ := exists_of_follows_snoc hway
      rw [List.length_append, List.length_singleton] at hlength
      have hmem := hn.mem_nodes hstart
      have hrefers := refers_of_reference hmem hr hfind
      exact ⟨n, hmem, hrefers, ⟨start, hstart, way, hn, by omega⟩, hbefore n hmem hrefers⟩
  · rintro ⟨⟨n, hn, hrefers, hdepth⟩, hall⟩
    obtain ⟨n', hn', hid, r, hr, hfind⟩ := h.exists_reference hm hrefers
    obtain rfl := List.inj_on_of_nodup_map h.distinct hn hn' hid.symm
    obtain ⟨start, hstart, way, hway, hlength⟩ := hdepth.attained
    refine ⟨⟨start, hstart, way ++ [r], hway.snoc hr hfind, by simp [hlength]⟩, ?_⟩
    intro start' hstart' way' hway'
    -- The last reference of a path comes from a node whose depth is bounded.
    cases way' using List.reverseRecOn with
    | nil => exact Nat.zero_le _
    | append_singleton way' r' =>
      obtain ⟨n', hn', hr', hfind'⟩ := exists_of_follows_snoc hway'
      have hmem := hn'.mem_nodes hstart'
      obtain ⟨j, hj, hdepth'⟩ := hall n' hmem (refers_of_reference hmem hr' hfind')
      have hle := hdepth'.longest start' hstart' way' hn'
      rw [List.length_append, List.length_singleton]
      omega

/-- A reference leads to a node of greater depth. -/
theorem IsDepth.lt_of_reference {j k : Nat} (hn : g.IsDepth n j) (hm : g.IsDepth m k)
    {r : Reference} (hr : r ∈ n.references) (hfind : g.find? r.target = some m) : j < k := by
  obtain ⟨start, hstart, way, hway, rfl⟩ := hn.attained
  have hlonger := hm.longest start hstart _ (hway.snoc hr hfind)
  rw [List.length_append, List.length_singleton] at hlonger
  omega

end Graph

end Workgraph
