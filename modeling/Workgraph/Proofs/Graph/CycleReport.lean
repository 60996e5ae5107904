import Workgraph.Proofs.Graph.Loading
/-!
# What is reported about reference cycles

The cycles of a workflow are those of its references that lead to a node; nodes of one id count as
one. There are finitely many elementary ones, and a small workflow has up to ten of them written
out, each once and closed by its first id, with a remark if there are more. A large workflow has one
elementary cycle written out, if there is any (`errors_report_cycles`).
-/

namespace Workgraph

namespace Graph

/-- A node with the first id refers to the second, and some node has the second. -/
def Resolves (g : Graph) (a b : String) : Prop := g.Refers a b ∧ ∃ n ∈ g.nodes, n.id = b

/-- The elementary cycles of the references that lead to a node. -/
def elementaryCycles (g : Graph) : Set (Cycle String) := {c | IsElementary g.Resolves c}

/-- Cycles that are listed, up to so many: no two of them are the same cycle, and none is left out
while there is room. -/
structure ListsCycles (g : Graph) (most : Nat) (cycles : List (List String)) : Prop where
  genuine : ∀ c ∈ cycles, IsElementary g.Resolves c
  distinct : (cycles.map Cycle.ofList).Nodup
  count : cycles.length = min g.elementaryCycles.ncard most

/-- The remark that there are more cycles than are listed. -/
def manyCycles : String := "Too many reference cycles (>10). Simplify graph structure."

/-- The line about a cycle of a large workflow. -/
def shownCycle (cycle : List String) : String :=
  "Reference cycle detected: " ++ arrows cycle ++ "... (graph too large for full cycle analysis)"

variable {g : Graph}

/-- Texts of which later copies are left out are distinct. -/
theorem nodup_eraseDups : ∀ texts : List String, texts.eraseDups.Nodup
  | [] => List.nodup_nil
  | text :: texts => by
    have hshorter : (texts.filter fun t => !t == text).length ≤ texts.length :=
      List.length_filter_le _ _
    rw [List.eraseDups_cons, List.nodup_cons]
    exact ⟨by simp, nodup_eraseDups _⟩
  termination_by texts => texts.length

theorem leads_ofGraph (g : Graph) : (Links.ofGraph g).Leads = g.Resolves := by
  funext a b
  exact propext leads_ofGraph_iff

theorem nodup_names_ofGraph (g : Graph) : (Links.ofGraph g).names.Nodup := by
  have hnames : (Links.ofGraph g).names = g.ids := by
    rw [Links.names, Links.ofGraph, List.map_map]
    exact List.map_id g.ids
  rw [hnames]
  exact nodup_eraseDups _

theorem nodup_after_ofGraph (g : Graph) (a : String) : ((Links.ofGraph g).after a).Nodup := by
  unfold Links.after Links.ofGraph
  rw [Entries.get?_map]
  split
  · exact nodup_eraseDups _
  · exact List.nodup_nil

/-! ## The number of elementary cycles -/

theorem mem_elementaryCycles_iff {c : Cycle String} :
    c ∈ g.elementaryCycles ↔ c ∈ (Links.ofGraph g).listing.map Cycle.ofList := by
  unfold elementaryCycles
  rw [Set.mem_ofPred_eq, ← leads_ofGraph, Links.isElementary_iff_mem_listing, List.mem_map]

theorem elementaryCycles_eq (g : Graph) :
    g.elementaryCycles = ((Links.ofGraph g).listing.map Cycle.ofList).toFinset := by
  ext c
  rw [mem_elementaryCycles_iff, Finset.mem_coe, List.mem_toFinset]

theorem finite_elementaryCycles (g : Graph) : g.elementaryCycles.Finite := by
  rw [elementaryCycles_eq]
  exact Finset.finite_toSet _

/-- The list of all elementary cycles is as long as there are such cycles. -/
theorem ncard_elementaryCycles (g : Graph) :
    g.elementaryCycles.ncard = (Links.ofGraph g).listing.length := by
  have hnodup := Links.nodup_listing (nodup_names_ofGraph g) (nodup_after_ofGraph g)
  rw [elementaryCycles_eq, Set.ncard_coe_finset, List.toFinset_card_of_nodup hnodup,
    List.length_map]

/-! ## The lines -/

theorem ListsCycles.perm {most : Nat} {cycles cycles' : List (List String)}
    (h : g.ListsCycles most cycles) (hperm : cycles'.Perm cycles) : g.ListsCycles most cycles' where
  genuine c hc := h.genuine c (hperm.mem_iff.1 hc)
  distinct := ((hperm.map Cycle.ofList).nodup_iff).2 h.distinct
  count := hperm.length_eq.trans h.count

/-- The beginning of the list of all elementary cycles lists up to so many. -/
theorem listsCycles_take (g : Graph) (most : Nat) :
    g.ListsCycles most ((Links.ofGraph g).listing.take most) where
  genuine c hc := by
    rw [← leads_ofGraph]
    exact Links.isElementary_iff_mem_listing.2 ⟨c, List.mem_of_mem_take hc, rfl⟩
  distinct := by
    rw [List.map_take]
    exact (Links.nodup_listing (nodup_names_ofGraph g) (nodup_after_ofGraph g)).sublist
      (List.take_sublist _ _)
  count := by rw [List.length_take, ncard_elementaryCycles, min_comm]

/-- Texts of items in order are the texts of these items in some order. -/
theorem exists_perm_of_sortTexts {α : Type} (text : α → String) (items : List α) :
    ∃ items' : List α, items'.Perm items ∧ sortTexts (items.map text) = items'.map text := by
  have hperm : (sortTexts (items.map text)).Perm (items.map text) := List.mergeSort_perm _ _
  have hsame := congrFun (congrFun (List.eq_map_comp_perm text) (sortTexts (items.map text))) items
  obtain ⟨items', hmap, hitems⟩ := hsame.mpr hperm
  exact ⟨items', hitems, hmap⟩

theorem cycleLines_of_small (hsmall : g.nodes.length ≤ 50) :
    ∃ cycles, g.ListsCycles 10 cycles ∧
      g.cycleLines = cycles.map cycleLine ++
        if 10 < g.elementaryCycles.ncard then [manyCycles] else [] := by
  have hfound := Links.cycles_eq_take (closed_ofGraph g) (maxListedCycles + 1)
  obtain ⟨cycles, hperm, hsorted⟩ :=
    exists_perm_of_sortTexts cycleLine ((Links.ofGraph g).listing.take 10)
  refine ⟨cycles, (listsCycles_take g 10).perm hperm, ?_⟩
  have hmany : maxListedCycles < ((Links.ofGraph g).cycles (maxListedCycles + 1)).length ↔
      10 < g.elementaryCycles.ncard := by
    rw [hfound, List.length_take, ncard_elementaryCycles, maxListedCycles]
    omega
  have hlisted : ((Links.ofGraph g).cycles (maxListedCycles + 1)).take maxListedCycles =
      (Links.ofGraph g).listing.take 10 := by
    rw [hfound, List.take_take]
    rfl
  unfold cycleLines
  simp only
  rw [if_neg (show ¬ g.nodes.length > maxListedNodes from not_lt.2 hsmall), hlisted, hsorted]
  by_cases h : 10 < g.elementaryCycles.ncard
  · rw [if_pos (hmany.2 h), if_pos h]
    rfl
  · rw [if_neg (mt hmany.1 h), if_neg h, List.append_nil]

theorem cycleLines_of_large (hlarge : 50 < g.nodes.length) :
    (g.elementaryCycles.ncard = 0 ∧ g.cycleLines = []) ∨
      0 < g.elementaryCycles.ncard ∧
        ∃ c : List String, IsElementary g.Resolves c ∧ g.cycleLines = [shownCycle c] := by
  have hlines : g.cycleLines = ((Links.ofGraph g).firstCycle?.map shownCycle).toList := by
    unfold cycleLines
    simp only
    rw [if_pos (show g.nodes.length > maxListedNodes from hlarge)]
    cases (Links.ofGraph g).firstCycle? <;> rfl
  rw [hlines]
  cases hfound : (Links.ofGraph g).firstCycle? with
  | none =>
    -- Without a way back to its start the list of all cycles is empty as well.
    have hacyclic := (Links.firstCycle?_eq_none_iff (closed_ofGraph g)).1 hfound
    have hnil := (Links.listing_eq_nil_iff (closed_ofGraph g)).2 hacyclic
    exact Or.inl ⟨by rw [ncard_elementaryCycles, hnil]; rfl, rfl⟩
  | some c =>
    have hc := Links.isElementary_of_firstCycle? hfound
    rw [leads_ofGraph] at hc
    have hmem : (c : Cycle String) ∈ g.elementaryCycles := hc
    exact Or.inr ⟨(Set.ncard_pos (finite_elementaryCycles g)).2 ⟨_, hmem⟩, c, hc, rfl⟩

/-- **Reports about cycles are exact.** Behind the lines about duplicate ids and about references
that lead nowhere, a workflow with up to fifty nodes has up to ten of its elementary cycles listed,
each once, and a remark exactly if there are more. A larger one has a line exactly if there is an
elementary cycle, and the line shows one. -/
theorem errors_report_cycles (g : Graph) (hnonempty : g.nodes ≠ []) :
    g.elementaryCycles.Finite ∧
      ∃ lines, g.errors = duplicateLines [] g.nodes ++
          (g.dangling.map fun (source, target) =>
            "Node '" ++ source ++ "': referenced node '" ++ target ++ "' not found") ++ lines ∧
        (g.nodes.length ≤ 50 → ∃ cycles, g.ListsCycles 10 cycles ∧
          lines = cycles.map cycleLine ++
            if 10 < g.elementaryCycles.ncard then [manyCycles] else []) ∧
        (50 < g.nodes.length → (g.elementaryCycles.ncard = 0 ∧ lines = []) ∨
          0 < g.elementaryCycles.ncard ∧
            ∃ c : List String, IsElementary g.Resolves c ∧ lines = [shownCycle c]) := by
  refine ⟨finite_elementaryCycles g, g.cycleLines, ?_, cycleLines_of_small, cycleLines_of_large⟩
  unfold errors
  rw [if_neg (mt List.isEmpty_iff.1 hnonempty)]

/-- Two nodes that go on with each other, of which the first also refers to itself. -/
def knot : Graph :=
  ⟨[⟨"a", none, .known (.condition [] (some "a")) (some "b")⟩,
    ⟨"b", none, .known .output (some "a")⟩]⟩

/-- They have two elementary cycles, since two lines are written about them. -/
theorem knot_report : knot.nodes ≠ [] ∧
    knot.errors = ["Reference cycle: a -> a", "Reference cycle: a -> b -> a"] ∧
    knot.elementaryCycles.ncard = 2 := by
  have hothers : duplicateLines [] knot.nodes = [] ∧ knot.dangling = [] := by decide +kernel
  have hfound : (Links.ofGraph knot).cycles (maxListedCycles + 1) = [["a"], ["a", "b"]] := by
    decide +kernel
  have hlines : knot.cycleLines = ["Reference cycle: a -> a", "Reference cycle: a -> b -> a"] := by
    unfold cycleLines
    simp only [hfound]
    exact List.mergeSort_of_pairwise (by decide +kernel)
  have herrors : knot.errors = ["Reference cycle: a -> a", "Reference cycle: a -> b -> a"] := by
    unfold errors
    rw [hothers.1, hothers.2, hlines]
    rfl
  have hnonempty : knot.nodes ≠ [] := by simp [knot]
  obtain ⟨-, lines, hlines, hsmall, -⟩ := errors_report_cycles knot hnonempty
  obtain ⟨cycles, hlisted, hcycles⟩ := hsmall (by decide)
  rw [herrors, hothers.1, hothers.2, hcycles] at hlines
  have hlength := congrArg List.length hlines
  simp only [List.map_nil, List.append_nil, List.nil_append, List.length_append, List.length_map,
    hlisted.count, List.length_cons, List.length_nil] at hlength
  refine ⟨hnonempty, herrors, ?_⟩
  split at hlength <;> simp only [List.length_cons, List.length_nil] at hlength <;> omega

end Graph

end Workgraph
