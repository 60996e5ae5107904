import Workgraph.Engine.Bound
import Workgraph.Engine.Handler
import Workgraph.Proofs.Graph.Loading
/-!
# How deep nodes schedule each other

Running a node runs other nodes inside it: those of its task, and the one it goes on with. The ids
of the nodes that run inside each other are a chain. In a sound workflow such a chain never comes to
an id twice and never to an id without a node, since the ids to which a node may come are among its
references and the references have no cycle. So it is never longer than the list of nodes, and the
process of a node is the same for every bound on the depth from there on.
-/

namespace Workgraph

/-! ## What a node may run -/

theorem mem_ofField {place t : String} {id : Option String} (h : filled id = some t) :
    t ∈ (Reference.ofField place id).map Reference.target := by
  simp [Reference.ofField, h]

theorem mem_listReferences {list field t : String} {ids : List (Option String)}
    {id : Option String} (hid : id ∈ ids) (h : filled id = some t) :
    ∀ index, t ∈ (listReferences list field index ids).map Reference.target := by
  induction ids with
  | nil => cases hid
  | cons other rest ih =>
    intro index
    simp only [listReferences, List.map_append, List.mem_append]
    rcases List.mem_cons.1 hid with rfl | hrest
    · exact Or.inl (mem_ofField h)
    · exact Or.inr (ih hrest (index + 1))

theorem eq_ok_of_liftDefect {α : Type} {result : Except Defect α} {a : α}
    (h : liftDefect result = .ok a) : result = .ok a := by
  cases result with
  | ok b =>
    cases h
    rfl
  | error d => cases h

theorem Condition.choose_mem {context : Context} {elseNode target : Option String}
    {conditions : List Condition} (h : choose context elseNode conditions = .ok target) :
    target ∈ elseNode :: conditions.map Condition.thenNode := by
  induction conditions with
  | nil =>
    cases h
    exact List.mem_cons_self
  | cons c rest ih =>
    simp only [choose] at h
    cases hc : c.holdsIn context with
    | error d => simp [hc, bind, Except.bind] at h
    | ok holds =>
      cases holds with
      | true =>
        obtain rfl : c.thenNode = target := by
          simpa [hc, bind, Except.bind, pure, Except.pure] using h
        simp
      | false =>
        have hrest : choose context elseNode rest = .ok target := by
          simpa [hc, bind, Except.bind] using h
        rcases List.mem_cons.1 (ih hrest) with rfl | hmem
        · exact List.mem_cons_self
        · exact List.mem_cons_of_mem _ (List.mem_cons_of_mem _ hmem)

theorem Task.mem_condition {conditions : List Condition} {elseNode id : Option String} {t : String}
    (hid : id ∈ elseNode :: conditions.map Condition.thenNode) (ht : filled id = some t) :
    t ∈ (Task.condition conditions elseNode).references.map Reference.target := by
  simp only [references, List.map_append, List.mem_append]
  rcases List.mem_cons.1 hid with rfl | hid
  · exact Or.inr (mem_ofField ht)
  · exact Or.inl (mem_listReferences hid ht 0)

theorem Task.mem_parallel {paths : List (Option String)} {t : String}
    (ht : t ∈ paths.filterMap filled) :
    t ∈ (Task.parallel paths).references.map Reference.target := by
  obtain ⟨id, hid, hfilled⟩ := List.mem_filterMap.1 ht
  exact mem_listReferences hid hfilled 0

theorem Node.mem_targets_of_task {n : Node} {task : Task} {next : Option String} {t : String}
    (hbehaviour : n.behaviour = .known task next)
    (ht : t ∈ task.references.map Reference.target) : t ∈ n.targets := by
  simp only [targets, references, hbehaviour, List.map_append, List.mem_append]
  exact Or.inl ht

theorem Node.mem_targets_of_next {n : Node} {t : String} (ht : filled n.next = some t) :
    t ∈ n.targets := by
  simp only [targets, references, List.map_append, List.mem_append]
  exact Or.inr (mem_ofField ht)

variable {settings : Settings} {run run' : String → Context → Process}

theorem runFilled_congr {id : Option String}
    (h : ∀ t, filled id = some t → ∀ context, run t context = run' t context) :
    runFilled run id = runFilled run' id := by
  funext context
  unfold runFilled
  cases hid : filled id with
  | none => rfl
  | some t => exact h t hid context

/-- A task runs no nodes but those to which it refers. -/
theorem Task.process_congr {task : Task} (id : String) (context : Context)
    (h : ∀ t ∈ task.references.map Reference.target, ∀ c, run t c = run' t c) :
    task.process settings run id context = task.process settings run' id context := by
  cases task with
  | condition conditions elseNode =>
    simp only [Task.process]
    cases hchoice : Condition.choose context elseNode conditions with
    | error d => rfl
    | ok target =>
      have hrun : runFilled run target = runFilled run' target :=
        runFilled_congr fun t ht => h t (mem_condition (Condition.choose_mem hchoice) ht)
      simp only [liftDefect, Process.ofExcept, hrun]
  | loop arrayField itemVariable loopNode maxIterations =>
    have hrun : runFilled run loopNode = runFilled run' loopNode :=
      runFilled_congr fun t ht => h t (mem_ofField ht)
    simp only [Task.process, loopProcess, hrun]
  | parallel paths =>
    have hrun : ∀ t ∈ paths.filterMap filled, run t context = run' t context :=
      fun t ht => h t (mem_parallel ht) context
    simp only [Task.process]
    split
    · rfl
    · rw [List.map_congr_left hrun]
  | _ => rfl

/-- A node runs no nodes but those to which it refers. -/
theorem Node.process_congr {n : Node} (context : Context)
    (h : ∀ t ∈ n.targets, ∀ c, run t c = run' t c) :
    (n.behaviour.process settings run n.id context).bind (runFilled run n.next) =
      (n.behaviour.process settings run' n.id context).bind (runFilled run' n.next) := by
  have hnext : runFilled run n.next = runFilled run' n.next :=
    runFilled_congr fun t ht => h t (mem_targets_of_next ht)
  have htask : n.behaviour.process settings run n.id context =
      n.behaviour.process settings run' n.id context := by
    cases hb : n.behaviour with
    | known task next =>
      exact Task.process_congr n.id context fun t ht => h t (mem_targets_of_task hb ht)
    | unknown type config => rfl
  rw [hnext, htask]

namespace Graph

variable {g : Graph}

theorem exists_of_find?_eq_some {id : String} {n : Node} (h : g.find? id = some n) :
    n ∈ g.nodes ∧ n.id = id :=
  ⟨List.mem_of_find?_eq_some h, by simpa using List.find?_some h⟩

theorem find?_isSome {id : String} (h : ∃ n ∈ g.nodes, n.id = id) :
    ∃ n, g.find? id = some n := by
  obtain ⟨n, hn, hid⟩ := h
  rw [← Option.isSome_iff_exists, find?, List.find?_isSome]
  exact ⟨n, hn, by simpa using hid⟩

/-- In a sound workflow the node of the id of a node is that node. -/
theorem Sound.find?_id (hsound : g.Sound) {n : Node} (hn : n ∈ g.nodes) : g.find? n.id = some n := by
  obtain ⟨m, hm⟩ := find?_isSome ⟨n, hn, rfl⟩
  obtain ⟨hmem, hid⟩ := exists_of_find?_eq_some hm
  rw [hm, List.inj_on_of_nodup_map hsound.distinct hmem hn hid]

/-- The process of the node with an id inside a chain of nodes that are running. There is no bound
on the depth. Instead it is refused to run an id without a node, an id of the chain, and anything
inside a chain that is as long as the list of nodes. -/
def guarded (g : Graph) (settings : Settings)
    (refuse : List String → String → Context → Process) (chain : List String) (id : String)
    (context : Context) : Process :=
  if _h : g.nodes.length ≤ chain.length then refuse chain id context
  else if id ∈ chain then refuse chain id context
  else match g.find? id with
    | none => refuse chain id context
    | some n =>
      .visit n.id n.typeName fun _ =>
        (n.behaviour.process settings (fun i c => guarded g settings refuse (id :: chain) i c)
          n.id context).bind
          (runFilled (fun i c => guarded g settings refuse (id :: chain) i c) n.next)
termination_by g.nodes.length - chain.length
decreasing_by
  all_goals simp_wf; omega

/-- The processes of several nodes one after another, each the start of a chain. -/
def guardedAll (g : Graph) (settings : Settings)
    (refuse : List String → String → Context → Process) : List String → Context → Process
  | [], context => .done context
  | id :: rest, context =>
    (g.guarded settings refuse [] id context).bind (g.guardedAll settings refuse rest)

/-- A chain of ids that run inside each other, and that are about to run another one. -/
structure Chain (g : Graph) (chain : List String) (id : String) : Prop where
  distinct : chain.Nodup
  leads : ∀ a ∈ chain, Relation.TransGen g.Refers a id
  found : ∃ n ∈ g.nodes, n.id = id

namespace Chain

theorem nil {id : String} (h : ∃ n ∈ g.nodes, n.id = id) : g.Chain [] id :=
  ⟨List.nodup_nil, by simp, h⟩

variable {chain : List String} {id : String}

theorem not_mem (hsound : g.Sound) (h : g.Chain chain id) : id ∉ chain :=
  fun hid => hsound.acyclic id (h.leads id hid)

theorem cons (hsound : g.Sound) (h : g.Chain chain id) {n : Node} (hn : n ∈ g.nodes)
    (hid : n.id = id) {t : String} (ht : t ∈ n.targets) : g.Chain (id :: chain) t := by
  have hrefers : g.Refers id t := ⟨n, hn, hid, ht⟩
  refine ⟨List.nodup_cons.2 ⟨h.not_mem hsound, h.distinct⟩, ?_, hsound.resolved n hn t ht⟩
  intro a ha
  rcases List.mem_cons.1 ha with rfl | ha
  · exact Relation.TransGen.single hrefers
  · exact (h.leads a ha).tail hrefers

/-- A chain has room for the id that it is about to run. -/
theorem length_lt (hsound : g.Sound) (h : g.Chain chain id) : chain.length < g.nodes.length := by
  have hsub : id :: chain ⊆ g.nodes.map Node.id := by
    intro a ha
    rcases List.mem_cons.1 ha with rfl | ha
    · obtain ⟨n, hn, rfl⟩ := h.found
      exact List.mem_map_of_mem hn
    · obtain ⟨b, ⟨n, hn, rfl, -⟩, -⟩ := Relation.TransGen.head'_iff.1 (h.leads a ha)
      exact List.mem_map_of_mem hn
  have hnodup : (id :: chain).Nodup := List.nodup_cons.2 ⟨h.not_mem hsound, h.distinct⟩
  have hlen := (List.subperm_of_subset hnodup hsub).length_le
  simp only [List.length_cons, List.length_map] at hlen
  omega

end Chain

/-- What holds of a node inside a chain, where some depth is left, as soon as it holds of the nodes to
which it refers, inside the longer chain and where less is left, holds wherever the depth leaves room
for all nodes. -/
theorem Sound.chain_induction (hsound : g.Sound) {P : Nat → List String → String → Prop}
    (hstep : ∀ depth chain, ∀ n ∈ g.nodes, g.Chain chain n.id →
      g.nodes.length ≤ depth + 1 + chain.length →
        (∀ t ∈ n.targets, P depth (n.id :: chain) t) → P (depth + 1) chain n.id) :
    ∀ (depth : Nat) (chain : List String) (id : String), g.Chain chain id →
      g.nodes.length ≤ depth + chain.length → P depth chain id := by
  intro depth
  induction depth with
  | zero =>
    -- The chain would be as long as the list of nodes, and there is one more id to run.
    intro chain id hchain hroom
    have hlt := hchain.length_lt hsound
    omega
  | succ depth ih =>
    intro chain id hchain hroom
    obtain ⟨n, hn, rfl⟩ := hchain.found
    apply hstep depth chain n hn hchain hroom
    intro t ht
    -- One step down the depth is one id more on the chain, which leaves as much room.
    apply ih (n.id :: chain) t (hchain.cons hsound hn rfl ht)
    rw [List.length_cons]
    omega

/-- What holds of a node as soon as it holds of those to which it refers holds of all nodes. -/
theorem Sound.induction (hsound : g.Sound) {P : String → Prop}
    (hstep : ∀ n ∈ g.nodes, (∀ t ∈ n.targets, P t) → P n.id) {id : String}
    (hid : ∃ n ∈ g.nodes, n.id = id) : P id :=
  hsound.chain_induction (P := fun _ _ id => P id) (fun _ _ n hn _ _ ih => hstep n hn ih)
    g.nodes.length [] id (Chain.nil hid) (Nat.le_add_right _ _)

/-- Inside a chain nothing is refused as long as the bound on the depth leaves room for all nodes. -/
theorem process_eq_guarded_of_chain (hsound : g.Sound)
    (refuse : List String → String → Context → Process) (depth : Nat) (chain : List String)
    (id : String) (context : Context) (hchain : g.Chain chain id)
    (hroom : g.nodes.length ≤ depth + chain.length) :
    g.process settings depth id context = g.guarded settings refuse chain id context := by
  refine hsound.chain_induction (P := fun depth chain id => ∀ context,
    g.process settings depth id context = g.guarded settings refuse chain id context)
    (fun depth chain n hn hchain hroom ih context => ?_) depth chain id hchain hroom context
  have hlt := hchain.length_lt hsound
  rw [guarded, dif_neg (by omega), if_neg (hchain.not_mem hsound)]
  simp only [process, hsound.find?_id hn]
  rw [Node.process_congr context ih]

/-- Inside a chain the bound on the depth does not matter as long as it leaves room for all nodes. -/
theorem process_eq_of_chain (hsound : g.Sound) {depth depth' : Nat} {chain : List String}
    {id : String} (hchain : g.Chain chain id) (h : g.nodes.length ≤ depth + chain.length)
    (h' : g.nodes.length ≤ depth' + chain.length) (context : Context) :
    g.process settings depth id context = g.process settings depth' id context := by
  rw [process_eq_guarded_of_chain hsound (fun _ _ c => .done c) depth chain id context hchain h,
    process_eq_guarded_of_chain hsound (fun _ _ c => .done c) depth' chain id context hchain h']

/-- The bound on the depth does not matter once it leaves room for all nodes. -/
theorem process_eq_of_le (hsound : g.Sound) {depth depth' : Nat} (h : g.nodes.length ≤ depth)
    (h' : g.nodes.length ≤ depth') {id : String} (hid : ∃ n ∈ g.nodes, n.id = id)
    (context : Context) :
    g.process settings depth id context = g.process settings depth' id context :=
  process_eq_of_chain hsound (Chain.nil hid) h h' context

theorem length_le_depth (g : Graph) : g.nodes.length ≤ g.depth := Nat.le_add_right _ _

/-- At full depth the process of a node runs the processes of other nodes at full depth. -/
theorem process_depth (hsound : g.Sound) {id : String} {n : Node} (hfind : g.find? id = some n)
    (context : Context) :
    g.process settings g.depth id context =
      .visit n.id n.typeName fun _ =>
        (n.behaviour.process settings (g.process settings g.depth) n.id context).bind
          (runFilled (g.process settings g.depth) n.next) := by
  obtain ⟨hn, hid⟩ := exists_of_find?_eq_some hfind
  have hlonger : g.process settings g.depth id context =
      g.process settings (g.depth + 1) id context :=
    process_eq_of_le hsound g.length_le_depth (Nat.le_succ_of_le g.length_le_depth) ⟨n, hn, hid⟩
      context
  rw [hlonger]
  simp only [process, hfind]

end Graph

end Workgraph
