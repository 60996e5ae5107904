import Workgraph.Engine.Run
import Workgraph.Proofs.Engine.Cost
import Workgraph.Proofs.Engine.Nesting
import Workgraph.Proofs.Entries
/-!
# Runs have turns enough

The turns that are allowed for a run cover the cost of its process (`costs_processAll`): each visit
allows for eight events, of which five pay for the branch that it may begin and two for a wait.
-/

namespace Workgraph

namespace Process

variable {p : Process} {m n : Nat}

theorem Costs.bind {k : Context → Process} (h : p.Costs m) (hk : ∀ context, (k context).Costs n) :
    (p.bind k).Costs (m + n) := by
  induction h with
  | done => exact (hk _).mono (Nat.le_add_left _ _)
  | fail => exact .fail
  | visit _ ih => exact .visit ih
  | warn _ ih => exact .warn ih
  | store _ ih => exact .store ih
  | call _ hle ih => exact .call ih (by omega)
  | sleep hwait _ hle ih => exact .sleep hwait ih (by omega)
  | fork hne hbranches _ hle _ ih => exact .fork hne hbranches ih (by omega)

theorem Costs.warnAll {words : List String} {q : Unit → Process} (h : (q ()).Costs n) :
    (warnAll words q).Costs n := by
  induction words with
  | nil => exact h
  | cons w rest ih => exact .warn ih

theorem Costs.ofExcept {α : Type} {result : Except Fault α} {q : α → Process}
    (h : ∀ a, result = .ok a → (q a).Costs n) : (ofExcept result q).Costs n := by
  cases result with
  | ok a => exact h a rfl
  | error f => exact .fail

theorem Costs.turns {itemVariable : Option String} {body : Context → Process}
    (h : ∀ context, (body context).Costs n) (items : List Value) :
    ∀ (index : Nat) (context : Context),
      (turns itemVariable body index items context).Costs (items.length * n) := by
  induction items with
  | nil => intro index context; exact .done
  | cons item rest ih =>
    intro index context
    have hturn := (h (turnContext itemVariable index item context)).bind (ih (index + 1))
    refine hturn.mono ?_
    rw [List.length_cons, Nat.succ_mul]
    omega

end Process

/-! ## Nodes -/

theorem le_foldl_max {a : Nat} {l : List Nat} (h : a ∈ l) : ∀ b, a ≤ l.foldl max b := by
  have hstart : ∀ (l : List Nat) (b : Nat), b ≤ l.foldl max b := by
    intro l
    induction l with
    | nil => intro b; exact Nat.le_refl b
    | cons c rest ih => intro b; exact Nat.le_trans (Nat.le_max_left b c) (ih (max b c))
  induction l with
  | nil => cases h
  | cons c rest ih =>
    intro b
    rcases List.mem_cons.1 h with rfl | hrest
    · exact Nat.le_trans (Nat.le_max_right b a) (hstart rest (max b a))
    · exact ih hrest (max b c)

variable {settings : Settings} {run : String → Context → Process} {bound : String → Nat}

/-- The bound of a node covers what running it costs, and that it may be run as a branch. -/
def Covers (run : String → Context → Process) (bound : String → Nat) (id : String) : Prop :=
  1 ≤ bound id ∧ ∀ context, (run id context).Costs (8 * bound id - 5)

theorem costs_runFilled {id : Option String} (h : ∀ t, filled id = some t → Covers run bound t)
    (context : Context) : (runFilled run id context).Costs (8 * filledBound bound id) := by
  unfold runFilled filledBound
  cases hid : filled id with
  | none => exact .done
  | some t => exact ((h t hid).2 context).mono (Nat.sub_le _ _)

/-- The cost of the branches of a parallel task. -/
theorem total_branches {targets : List String} (h : ∀ t ∈ targets, 1 ≤ bound t) :
    (total targets.length fun k => (8 * bound (targets.getD k "") - 5) + 5) =
      8 * (targets.map bound).foldr (· + ·) 0 := by
  induction targets with
  | nil => rfl
  | cons t rest ih =>
    have hfirst := h t List.mem_cons_self
    have hrest := ih fun u hu => h u (List.mem_cons_of_mem t hu)
    rw [List.length_cons, Nat.add_comm rest.length 1, total_add]
    have hone : ∀ c : Nat → Nat, total 1 c = c 0 := by
      intro c
      simp [total]
    simp only [hone, Nat.add_comm 1, List.getD_cons_succ, List.getD_cons_zero, hrest,
      List.map_cons, List.foldr_cons]
    omega

theorem costs_branches {targets : List String} (h : ∀ t ∈ targets, Covers run bound t)
    (hne : targets ≠ []) (context : Context) :
    (Process.fork (targets.map fun t => run t context) fun _ => .done context).Costs
      (8 * (targets.map bound).foldr (· + ·) 0 + 3) := by
  -- Each branch costs five less than eight times its bound, and the fork takes these five.
  have htotal := total_branches fun t ht => (h t ht).1
  have hcosts : ∀ k (hk : k < (targets.map fun t => run t context).length),
      ((targets.map fun t => run t context)[k]).Costs (8 * bound (targets.getD k "") - 5) := by
    intro k hk
    have hk' : k < targets.length := by simpa using hk
    have hget : targets.getD k "" = targets[k] := by simp [hk']
    rw [List.getElem_map, hget]
    exact (h _ (List.getElem_mem hk')).2 context
  have hdone : (Process.done context).Costs 0 := .done
  refine .fork (by simpa using hne) hcosts hdone ?_
  rw [List.length_map, htotal]
  omega

theorem sum_filledBound (ids : List (Option String)) :
    (ids.map (filledBound bound)).foldr (· + ·) 0 =
      ((ids.filterMap filled).map bound).foldr (· + ·) 0 := by
  induction ids with
  | nil => rfl
  | cons id rest ih =>
    rw [List.map_cons, List.foldr_cons, ih, List.filterMap_cons]
    unfold filledBound
    cases filled id with
    | none => simp
    | some t => simp

/-- A task costs little more than the nodes that it runs. -/
theorem Task.costs {task : Task}
    (h : ∀ t ∈ task.references.map Reference.target, Covers run bound t) (id : String)
    (context : Context) :
    (task.process settings run id context).Costs (8 * task.bound settings bound + 3) := by
  cases task with
  | trigger => exact .done
  | output => exact .done
  | condition conditions elseNode =>
    refine Process.Costs.ofExcept fun target htarget => ?_
    have hmem := Condition.choose_mem (eq_ok_of_liftDefect htarget)
    have hbound : filledBound bound target ≤
        (Task.condition conditions elseNode).bound settings bound :=
      le_foldl_max (List.mem_map_of_mem hmem) 0
    exact (costs_runFilled (fun t ht => h t (mem_condition hmem ht)) context).mono (by omega)
  | loop arrayField itemVariable loopNode maxIterations =>
    refine Process.Costs.ofExcept fun v _ => ?_
    cases v with
    | list items =>
      have hbody : ∀ context, (runFilled run loopNode context).Costs _ :=
        costs_runFilled fun t ht => h t (mem_ofField ht)
      have hlength : (items.take (loopCap settings maxIterations)).length ≤
          loopCap settings maxIterations := List.length_take_le _ _
      -- As many turns as the cap allows cost as much as the bound of the loop says.
      have hproduct := Nat.mul_le_mul_right (8 * filledBound bound loopNode) hlength
      rw [Nat.mul_left_comm (loopCap settings maxIterations)] at hproduct
      exact Process.Costs.warnAll ((Process.Costs.turns hbody _ 0 context).mono
        (Nat.le_trans hproduct (Nat.le_add_right _ 3)))
    | null => exact .done
    | _ => exact .warn .done
  | parallel paths =>
    have hcovers : ∀ t ∈ paths.filterMap filled, Covers run bound t :=
      fun t ht => h t (mem_parallel ht)
    simp only [Task.process, Task.bound, sum_filledBound]
    generalize paths.filterMap filled = targets at hcovers
    cases targets with
    | nil => exact .done
    | cons target rest => exact costs_branches hcovers (List.cons_ne_nil target rest) context
  | apiCall c =>
    exact Process.Costs.ofExcept fun request _ => .call (fun _ => .done) (Nat.le_add_left 2 _)
  | databaseQuery q =>
    simp only [Task.process, DatabaseQuery.process]
    split
    · exact .store fun _ => .done
    · exact .store fun _ => .warn .done
  | dataTransform source steps result => exact Process.Costs.ofExcept fun _ _ => .done
  | filter source conditions result => exact Process.Costs.ofExcept fun _ _ => .done
  | delay duration unit =>
    simp only [Task.process]
    generalize hwait : Binary64.less (Binary64.zero false) (delaySeconds duration unit) = waits
    cases waits with
    | true => exact .sleep hwait .done (Nat.le_add_left 2 _)
    | false => exact .done

/-! ## Workflows -/

namespace Graph

variable {g : Graph}

/-- **What a node costs is covered by its bound.** -/
theorem covers_of_chain (hsound : g.Sound) :
    ∀ (depth : Nat) (chain : List String) (id : String), g.Chain chain id →
      g.nodes.length ≤ depth + chain.length →
        Covers (g.process settings depth) (g.bound settings depth) id := by
  refine hsound.chain_induction (P := fun depth _ id =>
    Covers (g.process settings depth) (g.bound settings depth) id)
    fun depth chain n hn _ _ hinner => ?_
  have hfind := hsound.find?_id hn
  have hnext : ∀ context, (runFilled (g.process settings depth) n.next context).Costs _ :=
    costs_runFilled fun t ht => hinner t (Node.mem_targets_of_next ht)
  have hbound : g.bound settings (depth + 1) n.id = n.bound settings (g.bound settings depth) := by
    simp only [bound, hfind]
  rw [Covers, hbound]
  refine ⟨by unfold Node.bound; omega, fun context => ?_⟩
  simp only [process, hfind]
  -- Of the eight for the visit itself five are spared, and a task needs no more than three.
  cases hb : n.behaviour with
  | known task next =>
    have htask : (task.process settings (g.process settings depth) n.id context).Costs _ :=
      Task.costs (fun t ht => hinner t (Node.mem_targets_of_task hb ht)) n.id context
    refine .visit ((htask.bind hnext).mono ?_)
    simp only [Node.bound, hb]
    omega
  | unknown type config =>
    have hwarn : ((Behaviour.unknown type config).process settings (g.process settings depth) n.id
        context).Costs 0 := .warn .done
    refine .visit ((hwarn.bind hnext).mono ?_)
    simp only [Node.bound, hb]
    omega

/-- The table of bounds holds the bounds. -/
theorem get?_boundTable (depth : Nat) (id : String) :
    ((g.boundTable settings depth).get? id).getD 0 = g.bound settings depth id := by
  induction depth generalizing id with
  | zero => rfl
  | succ depth ih =>
    have htable : (fun i => ((g.boundTable settings depth).get? i).getD 0) =
        g.bound settings depth := funext ih
    simp only [boundTable, htable, Entries.get?_map, bound]
    by_cases hid : id ∈ g.ids
    · simp [hid]
    -- An id without a node is not in the table, and its bound is nothing.
    · have hnone : g.find? id = none := by
        rw [find?, List.find?_eq_none]
        intro n hn hnid
        exact hid (mem_ids.2 ⟨n, hn, by simpa using hnid⟩)
      simp [hid, hnone]

theorem costs_processAll_of_bound (hsound : g.Sound) {ids : List String}
    (hids : ∀ id ∈ ids, ∃ n ∈ g.nodes, n.id = id) (context : Context) :
    (g.processAll settings g.depth ids context).Costs
      (8 * (ids.map (g.bound settings g.nodes.length)).foldr (· + ·) 0) := by
  induction ids generalizing context with
  | nil => exact .done
  | cons id rest ih =>
    have hid := hids id List.mem_cons_self
    have hcovers : Covers (g.process settings g.nodes.length) (g.bound settings g.nodes.length) id :=
      covers_of_chain hsound g.nodes.length [] id (Chain.nil hid) (by simp)
    have hdepth : g.process settings g.depth id context =
        g.process settings g.nodes.length id context :=
      process_eq_of_le hsound (Nat.le_add_right _ _) (Nat.le_refl _) hid context
    have hfirst := (hcovers.2 context).mono (Nat.sub_le _ 5)
    rw [processAll, hdepth, List.map_cons, List.foldr_cons, Nat.mul_add]
    exact hfirst.bind fun c => ih (fun i hi => hids i (List.mem_cons_of_mem id hi)) c

/-- **The turns that are allowed for a run cover its cost.** -/
theorem costs_processAll (hsound : g.Sound) {ids : List String}
    (hids : ∀ id ∈ ids, ∃ n ∈ g.nodes, n.id = id) (context : Context) :
    ∃ cost, (g.processAll settings g.depth ids context).Costs cost ∧
      cost + 4 ≤ g.turnBudget settings ids := by
  refine ⟨_, costs_processAll_of_bound hsound hids context, ?_⟩
  have htable : (fun id => ((g.boundTable settings g.nodes.length).get? id).getD 0) =
      g.bound settings g.nodes.length := funext (get?_boundTable g.nodes.length)
  simp only [turnBudget, htable, spareDepth]
  omega

theorem mem_of_mem_roots {n : Node} (h : n ∈ g.roots) : n ∈ g.nodes := by
  unfold roots at h
  cases hnodes : g.nodes with
  | nil => simp [hnodes] at h
  | cons entry rest =>
    rw [hnodes] at h
    rcases List.mem_cons.1 h with rfl | hrest
    · exact List.mem_cons_self
    · exact List.mem_cons_of_mem entry (List.mem_filter.1 hrest).1

end Graph

end Workgraph
