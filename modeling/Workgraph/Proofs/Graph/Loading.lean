import Workgraph.Graph.Check
import Workgraph.Proofs.Graph.CycleListing
import Workgraph.Proofs.Schema.Reasons
/-!
# Which workflows can be loaded

A workflow is sound if it has nodes, their ids are distinct, every reference leads to a node, and
the references have no cycle. Loading accepts exactly the lists of values whose nodes fit and make a
sound workflow, which are the lists without findings, and otherwise fails with the first kind of
fault that applies (`load_ok_iff_no_findings`).
-/

namespace Workgraph

open Schema

namespace Graph

/-- A node with the first id refers to the second. -/
def Refers (g : Graph) (a b : String) : Prop := ∃ n ∈ g.nodes, n.id = a ∧ b ∈ n.targets

/-- A workflow that can be run. -/
structure Sound (g : Graph) : Prop where
  nonempty : g.nodes ≠ []
  distinct : (g.nodes.map Node.id).Nodup
  resolved : ∀ n ∈ g.nodes, ∀ t ∈ n.targets, ∃ m ∈ g.nodes, m.id = t
  acyclic : ∀ a, ¬ Relation.TransGen g.Refers a a

/-- The first reference that leads nowhere, in the order of the nodes and of their references. -/
def FirstDangling (g : Graph) (n : Node) (target : String) : Prop :=
  ∃ before behind sooner later, g.nodes = before ++ n :: behind ∧
    n.targets = sooner ++ target :: later ∧
    (∀ m ∈ before, ∀ t ∈ m.targets, ∃ m' ∈ g.nodes, m'.id = t) ∧
    (∀ t ∈ sooner, ∃ m ∈ g.nodes, m.id = t) ∧ ¬ ∃ m ∈ g.nodes, m.id = target

variable {g : Graph}

@[simp] theorem hasId_iff {id : String} : g.hasId id = true ↔ ∃ n ∈ g.nodes, n.id = id := by
  simp [hasId]

theorem hasId_eq_false_iff {id : String} : g.hasId id = false ↔ ¬ ∃ n ∈ g.nodes, n.id = id := by
  rw [← Bool.not_eq_true, hasId_iff]

@[simp] theorem mem_ids {id : String} : id ∈ g.ids ↔ ∃ n ∈ g.nodes, n.id = id := by
  simp [ids]

@[simp] theorem mem_successors {a b : String} :
    b ∈ g.successors a ↔ g.Refers a b ∧ ∃ n ∈ g.nodes, n.id = b := by
  simp only [successors, List.mem_eraseDups, List.mem_filter, List.mem_flatMap, hasId_iff,
    decide_eq_true_eq, Refers, and_assoc]

/-! ## Cycles of references -/

theorem leads_ofGraph_iff {a b : String} :
    (Links.ofGraph g).Leads a b ↔ g.Refers a b ∧ ∃ n ∈ g.nodes, n.id = b := by
  unfold Links.Leads Links.after Links.ofGraph
  rw [Entries.get?_map]
  by_cases ha : a ∈ g.ids
  · simp [ha]
  · have hno : ¬ g.Refers a b := by
      rintro ⟨n, hn, rfl, -⟩
      exact ha (mem_ids.2 ⟨n, hn, rfl⟩)
    simp [ha, hno]

theorem closed_ofGraph (g : Graph) : (Links.ofGraph g).Closed := by
  intro a b hab
  have hb := (leads_ofGraph_iff.1 hab).2
  simpa [Links.names, Links.ofGraph] using hb

theorem sortTexts_eq_nil_iff {texts : List String} : sortTexts texts = [] ↔ texts = [] := by
  unfold sortTexts
  rw [← List.length_eq_zero_iff, List.length_mergeSort, List.length_eq_zero_iff]

/-- No line is written about cycles exactly if there are none, whatever the size of the graph. -/
theorem cycleLines_eq_nil_iff : g.cycleLines = [] ↔ (Links.ofGraph g).Acyclic := by
  have hclosed := closed_ofGraph g
  unfold cycleLines
  simp only
  split
  · rw [← Links.firstCycle?_eq_none_iff hclosed]
    split <;> simp_all
  · rw [← Links.cycles_eq_nil_iff hclosed (Nat.succ_pos maxListedCycles)]
    split
    · rename_i hmany
      -- More cycles than are listed are announced by their number, which is not zero.
      have hne : (Links.ofGraph g).cycles (maxListedCycles + 1) ≠ [] := by
        intro hnil
        simp [hnil] at hmany
      simp [hne]
    · rw [sortTexts_eq_nil_iff, List.map_eq_nil_iff, List.take_eq_nil_iff]
      simp [maxListedCycles]

/-! ## Structural errors -/

theorem duplicateLines_eq_nil_iff (nodes : List Node) :
    ∀ seen : List String, duplicateLines seen nodes = [] ↔
      (nodes.map Node.id).Nodup ∧ ∀ n ∈ nodes, n.id ∉ seen := by
  induction nodes with
  | nil => intro seen; simp [duplicateLines]
  | cons n rest ih =>
    intro seen
    simp only [duplicateLines]
    by_cases hn : n.id ∈ seen
    · simp [hn]
    -- An id that is new counts as seen for the rest.
    · have hn' : seen.contains n.id = false := by simpa using hn
      rw [hn', if_neg (by simp), ih]
      simp only [List.map_cons, List.nodup_cons, List.mem_map, List.mem_cons, not_or,
        forall_eq_or_imp, hn, not_false_eq_true, true_and, not_exists, not_and]
      constructor
      · rintro ⟨hnodup, hrest⟩
        exact ⟨⟨fun m hm => (hrest m hm).1, hnodup⟩, fun m hm => (hrest m hm).2⟩
      · rintro ⟨⟨hfresh, hnodup⟩, hrest⟩
        exact ⟨hnodup, fun m hm => ⟨hfresh m hm, hrest m hm⟩⟩

theorem dangling_eq_nil_iff :
    g.dangling = [] ↔ ∀ n ∈ g.nodes, ∀ t ∈ n.targets, ∃ m ∈ g.nodes, m.id = t := by
  simp only [dangling, List.flatMap_eq_nil_iff, List.map_eq_nil_iff, List.filter_eq_nil_iff]
  simp

/-- Where every reference leads to a node, the links are the references. -/
theorem acyclic_ofGraph_iff (hresolved : ∀ n ∈ g.nodes, ∀ t ∈ n.targets, ∃ m ∈ g.nodes, m.id = t) :
    (Links.ofGraph g).Acyclic ↔ ∀ a, ¬ Relation.TransGen g.Refers a a := by
  have hleads : (Links.ofGraph g).Leads = g.Refers := by
    funext a b
    rw [leads_ofGraph_iff, eq_iff_iff, and_iff_left_iff_imp]
    rintro ⟨n, hn, -, hb⟩
    exact hresolved n hn b hb
  unfold Links.Acyclic
  rw [hleads]

/-- A graph has no structural errors exactly if it is sound. -/
theorem errors_eq_nil_iff : g.errors = [] ↔ g.Sound := by
  unfold errors
  by_cases hempty : g.nodes.isEmpty
  · rw [if_pos hempty]
    simp only [List.cons_ne_self, false_iff]
    exact fun hsound => hsound.nonempty (List.isEmpty_iff.1 hempty)
  · rw [if_neg hempty]
    simp only [List.append_eq_nil_iff, List.map_eq_nil_iff, duplicateLines_eq_nil_iff,
      dangling_eq_nil_iff, cycleLines_eq_nil_iff]
    constructor
    · rintro ⟨⟨⟨hnodup, -⟩, hresolved⟩, hacyclic⟩
      exact ⟨mt List.isEmpty_iff.2 hempty, hnodup, hresolved,
        (acyclic_ofGraph_iff hresolved).1 hacyclic⟩
    · intro hsound
      exact ⟨⟨⟨hsound.distinct, by simp⟩, hsound.resolved⟩,
        (acyclic_ofGraph_iff hsound.resolved).2 hsound.acyclic⟩

/-- The reference that is reported is the first one that leads nowhere. -/
theorem firstDangling_of_dangling_eq_cons {source target : String} {rest : List (String × String)}
    (h : g.dangling = (source, target) :: rest) :
    ∃ n, g.FirstDangling n target ∧ source = n.id := by
  -- By induction on the nodes that are still to be looked at; those before have no such reference.
  have key : ∀ before nodes : List Node, g.nodes = before ++ nodes →
      (∀ m ∈ before, ∀ t ∈ m.targets, ∃ m' ∈ g.nodes, m'.id = t) →
      (nodes.flatMap fun n => (n.targets.filter fun t => !g.hasId t).map fun t => (n.id, t)) =
        (source, target) :: rest →
      ∃ n, g.FirstDangling n target ∧ source = n.id := by
    intro before nodes
    induction nodes generalizing before with
    | nil => intro _ _ h; simp at h
    | cons n nodes ih =>
      intro hsplit hbefore h
      rw [List.flatMap_cons] at h
      cases hf : n.targets.filter fun t => !g.hasId t with
      | nil =>
        rw [hf] at h
        refine ih (before ++ [n]) (by simp [hsplit]) ?_ h
        intro m hm
        rcases List.mem_append.1 hm with hm | hm
        · exact hbefore m hm
        · obtain rfl : m = n := by simpa using hm
          simpa using hf
      | cons t ts =>
        rw [hf] at h
        simp only [List.map_cons, List.cons_append, List.cons.injEq, Prod.mk.injEq] at h
        obtain ⟨⟨rfl, rfl⟩, -⟩ := h
        -- The first reference that is kept has none before it that would be.
        obtain ⟨sooner, later, hn, hsooner, ht, -⟩ := List.filter_eq_cons_iff.1 hf
        refine ⟨n, ⟨before, nodes, sooner, later, hsplit, hn, hbefore, ?_, ?_⟩, rfl⟩
        · simpa using hsooner
        · exact hasId_eq_false_iff.1 (by simpa using ht)
  exact key [] g.nodes rfl (by simp) h

end Graph

/-! ## Values that stand for nodes -/

/-- Every value of a list fits as the node at the same place. -/
def NodesFit (items : List Value) (nodes : List Node) : Prop :=
  List.Forall₂ (fun v n => Node.ofValue v = .ok (.fits n)) items nodes

theorem Schema.Fit.seq_cons_eq_fits_iff {α : Type} {step : Step} {a : Fit α} {b : Fit (List α)}
    {xs : List α} :
    (List.cons <$> a.within step <*> b) = .fits xs ↔
      ∃ x rest, a = .fits x ∧ b = .fits rest ∧ xs = x :: rest := by
  cases a <;> cases b <;> simp [Functor.map, Seq.seq, Fit.map, Fit.both, Fit.within, eq_comm]

theorem nodesFrom_eq_fits_iff (items : List Value) :
    ∀ (index : Nat) (nodes : List Node),
      nodesFrom index items = .ok (.fits nodes) ↔ NodesFit items nodes := by
  induction items with
  | nil =>
    intro index nodes
    simp only [nodesFrom, NodesFit, List.forall₂_nil_left_iff, Except.ok.injEq, Fit.fits.injEq]
    exact eq_comm
  | cons v rest ih =>
    intro index nodes
    unfold NodesFit at ih ⊢
    rw [List.forall₂_cons_left_iff]
    simp only [nodesFrom]
    cases hv : Node.ofValue v with
    | error d => simp [bind, Except.bind]
    | ok first =>
      cases hr : nodesFrom (index + 1) rest with
      | error d =>
        simp only [bind, Except.bind, reduceCtorEq, false_iff]
        rintro ⟨n, ns, -, hns, -⟩
        rw [(ih (index + 1) ns).2 hns] at hr
        cases hr
      | ok others =>
        simp only [bind, Except.bind, pure, Except.pure, Except.ok.injEq,
          Schema.Fit.seq_cons_eq_fits_iff]
        constructor
        · rintro ⟨n, ns, rfl, rfl, rfl⟩
          exact ⟨n, ns, rfl, (ih (index + 1) ns).1 hr, rfl⟩
        · rintro ⟨n, ns, rfl, hns, rfl⟩
          rw [(ih (index + 1) ns).2 hns] at hr
          exact ⟨n, ns, rfl, by simpa using hr.symm, rfl⟩

theorem NodesFit.unique {items : List Value} {nodes nodes' : List Node} (h : NodesFit items nodes)
    (h' : NodesFit items nodes') : nodes = nodes' := by
  have hn := (nodesFrom_eq_fits_iff items 0 nodes).2 h
  rw [(nodesFrom_eq_fits_iff items 0 nodes').2 h'] at hn
  simpa using hn.symm

namespace Graph

theorem ofValue_list (items : List Value) :
    ofValue (.list items) =
      (nodesFrom 0 items).map fun fit => (fit.within (.field "nodes")).map Graph.mk := by
  unfold ofValue nodesOf
  simp only
  cases nodesFrom 0 items <;> rfl

theorem ofValue_list_eq_fits_iff {items : List Value} {g : Graph} :
    ofValue (.list items) = .ok (.fits g) ↔ NodesFit items g.nodes := by
  rw [ofValue_list, ← nodesFrom_eq_fits_iff items 0]
  cases nodesFrom 0 items with
  | error d => simp [Except.map]
  | ok fit =>
    cases fit with
    | fits nodes =>
      obtain ⟨gnodes⟩ := g
      simp [Except.map, Fit.within, Fit.map]
    | misfits found => simp [Except.map, Fit.within, Fit.map]

theorem reasoned_ofValue {items : List Value} {fit : Fit Graph}
    (h : ofValue (.list items) = .ok fit) : fit.Reasoned := by
  rw [ofValue_list] at h
  cases hn : nodesFrom 0 items with
  | error d => rw [hn] at h; cases h
  | ok nodes =>
    rw [hn] at h
    cases h
    exact ((reasoned_nodesFrom items 0 nodes hn).within _).map Graph.mk

/-- What loading comes to when the nodes fit. -/
theorem load_of_fits {v : Value} (h : ofValue v = .ok (.fits g)) :
    (g.Sound ∧ load v = .ok g) ∨
      (∃ n target, g.FirstDangling n target ∧
        load v = .error (.nodeNotFound target (some n.id))) ∨
      (∀ n ∈ g.nodes, ∀ t ∈ n.targets, ∃ m ∈ g.nodes, m.id = t) ∧ ¬ g.Sound ∧
        load v = .error (.invalidGraph g.errors) := by
  unfold load
  rw [h]
  simp only
  cases hd : g.dangling with
  | cons p rest =>
    obtain ⟨source, target⟩ := p
    obtain ⟨n, hn, rfl⟩ := firstDangling_of_dangling_eq_cons hd
    exact Or.inr (Or.inl ⟨n, target, hn, rfl⟩)
  | nil =>
    by_cases herrors : g.errors = []
    · exact Or.inl ⟨errors_eq_nil_iff.1 herrors, by rw [herrors]; rfl⟩
    · refine Or.inr (Or.inr ⟨dangling_eq_nil_iff.1 hd, mt errors_eq_nil_iff.2 herrors, ?_⟩)
      simp only
      rw [if_neg (mt List.isEmpty_iff.1 herrors)]

/-- What loading comes to when there are misfits. -/
theorem load_of_misfits {v : Value} {found : List Misfit} (h : ofValue v = .ok (.misfits found)) :
    (∃ lines, nodeLines v found = .ok lines ∧ load v = .error (.malformed lines)) ∨
      ∃ d, nodeLines v found = .error d ∧ load v = .error (.defect d) := by
  unfold load
  rw [h]
  simp only
  cases hlines : nodeLines v found with
  | ok lines => exact Or.inl ⟨lines, rfl, rfl⟩
  | error d => exact Or.inr ⟨d, rfl, rfl⟩

/-- A graph that has been loaded is the one that was read, and is sound. -/
theorem sound_of_load {v : Value} (h : load v = .ok g) : ofValue v = .ok (.fits g) ∧ g.Sound := by
  cases hv : ofValue v with
  | error d => simp [load, hv] at h
  | ok fit =>
    cases fit with
    | misfits found =>
      rcases load_of_misfits hv with ⟨lines, -, hload⟩ | ⟨d, -, hload⟩
      · rw [hload] at h
        cases h
      · rw [hload] at h
        cases h
    | fits g' =>
      rcases load_of_fits hv with ⟨hsound, hload⟩ | ⟨n, t, -, hload⟩ | ⟨-, -, hload⟩
      · rw [hload] at h
        cases h
        exact ⟨rfl, hsound⟩
      · rw [hload] at h
        cases h
      · rw [hload] at h
        cases h

/-- Nodes of which it has been checked that they can be loaded, and what becomes of them. -/
theorem exists_load_of_any {v : Value} {check : Graph → Bool}
    (h : (load v).toOption.any check = true) : ∃ g, load v = .ok g ∧ check g = true := by
  cases hload : load v with
  | ok g =>
    rw [hload] at h
    exact ⟨g, rfl, h⟩
  | error f =>
    rw [hload] at h
    cases h

/-- A list that has been checked has been read, and its errors are those of the graph, or the lines
about the misfits. -/
theorem ofValue_of_findings {items : List Value} {found : Findings}
    (h : findings (.list items) = .ok found) :
    ∃ fit, ofValue (.list items) = .ok fit ∧ match fit with
      | .misfits misfits => nodeLines (.list items) misfits = .ok found.errors
      | .fits g => found.errors = g.errors := by
  cases items with
  | nil =>
    obtain rfl : Findings.mk ["No nodes to execute"] [] = found := by
      simpa [findings, Value.isPresent] using h
    exact ⟨.fits ⟨[]⟩, rfl, rfl⟩
  | cons v rest =>
    simp only [findings, Value.isPresent, List.isEmpty_cons, Bool.not_false, Bool.not_true,
      Bool.false_eq_true, if_false] at h
    cases hv : ofValue (.list (v :: rest)) with
    | error d => rw [hv] at h; cases h
    | ok fit =>
      rw [hv] at h
      refine ⟨fit, rfl, ?_⟩
      cases fit with
      | misfits found' =>
        cases hlines : nodeLines (.list (v :: rest)) found' with
        | error d => simp [bind, Except.bind, hlines] at h
        | ok lines =>
          obtain rfl : Findings.mk lines [] = found := by
            simpa [bind, Except.bind, pure, Except.pure, hlines] using h
          exact hlines
      | fits g => cases h; rfl

/-- One line is written for each misfit. -/
theorem length_nodeLines {v : Value} {misfits : List Misfit} {lines : List String}
    (h : nodeLines v misfits = .ok lines) : lines.length = misfits.length := by
  simp only [nodeLines] at h
  split_ifs at h
  cases h
  exact List.length_map _

/-- **Loading and checking agree, and accept exactly the sound workflows.** A list of values can be
loaded exactly if it has no findings, which is so exactly if its nodes fit and make a sound
workflow. Otherwise misfits are reported before references that lead nowhere, of which the first is
named, and these before any other structural error. -/
theorem load_ok_iff_no_findings (items : List Value) (found : Findings)
    (hanswer : findings (.list items) = .ok found) :
    ((∃ g, load (.list items) = .ok g) ↔ found.errors = []) ∧
      (found.errors = [] ↔ ∃ nodes, NodesFit items nodes ∧ (Graph.mk nodes).Sound) ∧
      (∀ g, load (.list items) = .ok g → NodesFit items g.nodes) ∧
      ∀ fault, load (.list items) = .error fault →
        ((¬ ∃ nodes, NodesFit items nodes) ∧ fault = .malformed found.errors) ∨
          (∃ nodes n target, NodesFit items nodes ∧ (Graph.mk nodes).FirstDangling n target ∧
            fault = .nodeNotFound target (some n.id)) ∨
          ∃ nodes, NodesFit items nodes ∧
            (∀ n ∈ nodes, ∀ t ∈ n.targets, ∃ m ∈ nodes, m.id = t) ∧
            ¬ (Graph.mk nodes).Sound ∧ fault = .invalidGraph found.errors := by
  obtain ⟨fit, hfit, herrors⟩ := ofValue_of_findings hanswer
  cases fit with
  | misfits lines =>
    have hmisfit : ¬ ∃ nodes, NodesFit items nodes := by
      rintro ⟨nodes, hnodes⟩
      rw [(ofValue_list_eq_fits_iff (g := ⟨nodes⟩)).2 hnodes] at hfit
      cases hfit
    have hload : load (.list items) = .error (.malformed found.errors) := by
      simp only [load, hfit, herrors]
    have hne : found.errors ≠ [] := by
      rw [← List.length_pos_iff, length_nodeLines herrors, List.length_pos_iff]
      exact reasoned_ofValue hfit lines rfl
    refine ⟨?_, ?_, ?_, ?_⟩
    · simp [hload, hne]
    · simp only [hne, false_iff]
      exact fun ⟨nodes, hnodes, _⟩ => hmisfit ⟨nodes, hnodes⟩
    · simp [hload]
    · intro fault hfault
      rw [hload] at hfault
      cases hfault
      exact Or.inl ⟨hmisfit, rfl⟩
  | fits g =>
    simp only at herrors
    have hnodes : NodesFit items g.nodes := ofValue_list_eq_fits_iff.1 hfit
    have hsound : found.errors = [] ↔ g.Sound := by rw [herrors, errors_eq_nil_iff]
    have hunique : (∃ nodes, NodesFit items nodes ∧ (Graph.mk nodes).Sound) ↔ g.Sound := by
      constructor
      · rintro ⟨nodes, hfit', hsound'⟩
        obtain rfl := hfit'.unique hnodes
        exact hsound'
      · exact fun hsound' => ⟨g.nodes, hnodes, hsound'⟩
    rw [hsound, hunique]
    refine ⟨?_, Iff.rfl, ?_, ?_⟩
    · rcases load_of_fits hfit with ⟨hs, hload⟩ | ⟨n, t, hdangling, hload⟩ | ⟨-, hs, hload⟩
      · simp [hload, hs]
      · have hs : ¬ g.Sound := by
          obtain ⟨before, behind, sooner, later, hg, hn, -, -, hno⟩ := hdangling
          intro hs
          exact hno (hs.resolved n (by simp [hg]) t (by simp [hn]))
        simp [hload, hs]
      · simp [hload, hs]
    · intro g' hload
      have hread := (sound_of_load hload).1
      rw [hfit] at hread
      cases hread
      exact hnodes
    · intro fault hfault
      rcases load_of_fits hfit with ⟨-, hload⟩ | ⟨n, t, hdangling, hload⟩ | ⟨hres, hs, hload⟩
      · rw [hload] at hfault
        cases hfault
      · rw [hload] at hfault
        cases hfault
        exact Or.inr (Or.inl ⟨g.nodes, n, t, hnodes, hdangling, rfl⟩)
      · rw [hload, ← herrors] at hfault
        cases hfault
        exact Or.inr (Or.inr ⟨g.nodes, hnodes, hres, hs, rfl⟩)

/-- Two nodes that go on with each other. -/
def mutualNodes : List Value :=
  [.object [("id", .text "a"), ("type", .text "trigger"),
      ("config", .object [("nextNodeId", .text "b")])],
    .object [("id", .text "b"), ("type", .text "later"),
      ("config", .object [("nextNodeId", .text "a")])]]

/-- Two nodes that go on with each other fit and are distinct, and cannot be loaded. -/
theorem mutualNodes_rejected :
    findings (.list mutualNodes) = .ok
        ⟨["Reference cycle: a -> b -> a"], ["Node 'b': unknown type 'later' will be skipped"]⟩ ∧
      ¬ ∃ g, load (.list mutualNodes) = .ok g := by
  have hfound : findings (.list mutualNodes) = .ok
      ⟨["Reference cycle: a -> b -> a"], ["Node 'b': unknown type 'later' will be skipped"]⟩ := by
    decide +kernel
  refine ⟨hfound, fun hload => ?_⟩
  have herrors := (load_ok_iff_no_findings mutualNodes _ hfound).1.1 hload
  simp at herrors

end Graph

end Workgraph
