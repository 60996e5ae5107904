import Workgraph.Proofs.Engine.Words
/-!
# How much nodes log

The bound of a node limits the length of its words (`Graph.Word.length_le`), and so the number of
visits that running it adds to a trace, whatever the variables and the answers are and however its
branches are interleaved (`Engine.log_length_le`). Once the depth of the computation leaves room for
all nodes, the bounds satisfy the equation by which they are meant, with no depth in it
(`Graph.bound_eq`).
-/

namespace Workgraph

variable {settings : Settings}

theorem filledBound_congr {bound bound' : String → Nat} {id : Option String}
    (h : ∀ t, filled id = some t → bound t = bound' t) :
    filledBound bound id = filledBound bound' id := by
  unfold filledBound
  cases hid : filled id with
  | none => rfl
  | some t => exact h t hid

/-- The bound of a node depends on those of the nodes to which it refers only. -/
theorem Node.bound_congr {bound bound' : String → Nat} {n : Node}
    (h : ∀ t ∈ n.targets, bound t = bound' t) :
    n.bound settings bound = n.bound settings bound' := by
  have hnext : filledBound bound n.next = filledBound bound' n.next :=
    filledBound_congr fun t ht => h t (mem_targets_of_next ht)
  unfold Node.bound
  rw [hnext]
  cases hbehaviour : n.behaviour with
  | unknown type config => rfl
  | known task next =>
    have htargets := fun t ht => h t (mem_targets_of_task hbehaviour ht)
    cases task with
    | condition conditions elseNode =>
      have hbranches : (elseNode :: conditions.map Condition.thenNode).map (filledBound bound) =
          (elseNode :: conditions.map Condition.thenNode).map (filledBound bound') :=
        List.map_congr_left fun id hid =>
          filledBound_congr fun t ht => htargets t (Task.mem_condition hid ht)
      simp only [Task.bound, hbranches]
    | loop arrayField itemVariable loopNode maxIterations =>
      have hbody : filledBound bound loopNode = filledBound bound' loopNode :=
        filledBound_congr fun t ht => htargets t (mem_ofField ht)
      simp only [Task.bound, hbody]
    | parallel paths =>
      have hbranches : paths.map (filledBound bound) = paths.map (filledBound bound') :=
        List.map_congr_left fun id hid =>
          filledBound_congr fun t ht => htargets t (mem_listReferences hid ht 0)
      simp only [Task.bound, hbranches]
    | _ => rfl

namespace Graph

variable {g : Graph} {n : Node} {id : String} {l : List (String × String)}

/-- Inside a chain the depth of the computation does not matter as long as it leaves room for all
nodes. -/
theorem bound_eq_of_chain (hsound : g.Sound) : ∀ (depth : Nat) (chain : List String) (id : String),
    g.Chain chain id → g.nodes.length ≤ depth + chain.length →
      ∀ depth', g.nodes.length ≤ depth' + chain.length →
        g.bound settings depth id = g.bound settings depth' id := by
  refine hsound.chain_induction (P := fun depth chain id => ∀ depth',
    g.nodes.length ≤ depth' + chain.length →
      g.bound settings depth id = g.bound settings depth' id)
    fun depth chain n hn hchain _ ih depth' hroom => ?_
  -- The other depth is not used up on the chain either.
  have hlt := hchain.length_lt hsound
  obtain ⟨less, rfl⟩ : ∃ k, depth' = k + 1 := ⟨depth' - 1, by omega⟩
  simp only [bound, hsound.find?_id hn]
  apply Node.bound_congr
  intro t ht
  apply ih t ht less
  rw [List.length_cons]
  omega

/-- The bound of a node is its own visit, and the bounds of the nodes that it runs. -/
theorem bound_eq (settings : Settings) (hsound : g.Sound) (hn : n ∈ g.nodes) :
    g.bound settings g.nodes.length n.id = n.bound settings (g.bound settings g.nodes.length) := by
  -- The number of nodes is depth enough, so one more comes to the same.
  have hdeeper : g.bound settings g.nodes.length n.id =
      g.bound settings (g.nodes.length + 1) n.id :=
    bound_eq_of_chain hsound _ [] n.id (Chain.nil ⟨n, hn, rfl⟩) (by simp) _ (by simp)
  rw [hdeeper]
  simp only [bound, hsound.find?_id hn]

/-! ## The length of words -/

section
variable {bound : String → Nat}

theorem FilledWord.length_le {id : Option String} (h : g.FilledWord settings id l)
    (hwords : ∀ t, filled id = some t → ∀ w, g.Word settings t w → w.length ≤ bound t) :
    l.length ≤ filledBound bound id := by
  unfold filledBound
  cases h with
  | absent hid => exact Nat.zero_le _
  | given hid hw =>
    rw [hid]
    exact hwords _ hid _ hw

theorem length_flatten_le {α : Type} {ws : List (List α)} {k : Nat}
    (h : ∀ w ∈ ws, w.length ≤ k) : ws.flatten.length ≤ ws.length * k := by
  induction ws with
  | nil => exact Nat.zero_le _
  | cons w rest ih =>
    obtain ⟨hfirst, hrest⟩ := List.forall_mem_cons.1 h
    have htail := ih hrest
    rw [List.flatten_cons, List.length_append, List.length_cons, Nat.succ_mul]
    omega

theorem sum_length_le {targets : List String} {ws : List (List (String × String))}
    (h : List.Forall₂ (fun t w => w.length ≤ bound t) targets ws) :
    (ws.map List.length).sum ≤ (targets.map bound).sum := by
  induction h with
  | nil => exact Nat.le_refl _
  | cons hfirst _ ih =>
    simp only [List.map_cons, List.sum_cons]
    omega

/-- A body word is no longer than the bound of the task. -/
theorem BodyWord.length_le {task : Task} {next : Option String}
    (h : g.BodyWord settings (.known task next) l)
    (hwords : ∀ t ∈ task.references.map Reference.target, ∀ w,
      g.Word settings t w → w.length ≤ bound t) :
    l.length ≤ task.bound settings bound := by
  -- The cases of the words and those of the bound are the same.
  cases h with
  | plain hplain => exact Nat.zero_le _
  | stay => exact Nat.zero_le _
  | condition hid hw =>
    have hbranch := hw.length_le fun t ht => hwords t (Task.mem_condition hid ht)
    exact Nat.le_trans hbranch (le_foldl_max (List.mem_map_of_mem hid) 0)
  | @loop _ _ loopNode _ maxIterations ws hlength hws =>
    have hturn : ∀ w ∈ ws, w.length ≤ filledBound bound loopNode :=
      fun w hw => (hws w hw).length_le fun t ht => hwords t (mem_ofField ht)
    calc ws.flatten.length ≤ ws.length * filledBound bound loopNode := length_flatten_le hturn
      _ ≤ loopCap settings maxIterations * filledBound bound loopNode :=
        Nat.mul_le_mul_right _ hlength
  | @parallel paths _ ws l hws hl =>
    have hbranches : List.Forall₂ (fun t w => w.length ≤ bound t) (paths.filterMap filled) ws := by
      refine ((List.forall₂_and_left _ ws).2 ⟨fun t ht => ht, hws⟩).imp ?_
      rintro t w ⟨ht, hw⟩
      exact hwords t (Task.mem_parallel ht) w hw
    calc l.length = (ws.map List.length).sum := hl.length_eq
      _ ≤ ((paths.filterMap filled).map bound).sum := sum_length_le hbranches
      _ = (paths.map (filledBound bound)).foldr (· + ·) 0 := (sum_filledBound paths).symm

/-- **A word of a node is no longer than its bound.** -/
theorem Word.length_le (hsound : g.Sound) (hid : ∃ n ∈ g.nodes, n.id = id) :
    ∀ l, g.Word settings id l → l.length ≤ g.bound settings g.nodes.length id := by
  refine hsound.induction (P := fun id => ∀ l, g.Word settings id l →
    l.length ≤ g.bound settings g.nodes.length id) (fun n hn ih l h => ?_) hid
  cases h with
  | @node _ n' body rest hfind hbody hnext =>
    rw [hsound.find?_id hn] at hfind
    cases hfind
    -- One for the visit, the bound of the task for the body, that of the next node for the rest.
    have hrest := hnext.length_le fun t ht => ih t (Node.mem_targets_of_next ht)
    rw [bound_eq settings hsound hn, Node.bound, List.length_cons, List.length_append]
    generalize hbehaviour : n.behaviour = behaviour at hbody
    cases behaviour with
    | unknown type config =>
      cases hbody
      simp only [List.length_nil]
      omega
    | known task next =>
      have htask := hbody.length_le fun t ht =>
        ih t (Node.mem_targets_of_task hbehaviour ht)
      simp only
      omega

theorem RunWord.length_le (hsound : g.Sound) {ids : List String}
    (hids : ∀ id ∈ ids, ∃ n ∈ g.nodes, n.id = id) (h : g.RunWord settings ids l) :
    l.length ≤ (ids.map (g.bound settings g.nodes.length)).sum := by
  induction h with
  | nil => exact Nat.le_refl _
  | @cons id rest w l hw _ ih =>
    have hfirst := Word.length_le hsound (hids id List.mem_cons_self) w hw
    have hrest := ih fun i hi => hids i (List.mem_cons_of_mem id hi)
    rw [List.length_append, List.map_cons, List.sum_cons]
    omega

end

/-- **Whatever a node does by steps of its own, it logs no more than its bound.** -/
theorem length_le_of_adds {env : Surroundings} {transport : Transport} (hsound : g.Sound)
    (hid : ∃ n ∈ g.nodes, n.id = id) {context : Context} {q : Process}
    (h : Process.Adds env transport (g.process settings g.depth id context) l q) :
    l.length ≤ g.bound settings g.nodes.length id := by
  have hcut := (words_of_logs settings hsound hid context l).2 h.logs_cut
  obtain ⟨w, hw, hle⟩ := CutWord.exists_word hsound hid l hcut
  exact Nat.le_trans hle.length_le (Word.length_le hsound hid w hw)

end Graph

namespace Engine

theorem size_trace (w : World) : w.trace.size = w.log.length := by
  simp [World.log]

/-- **The number of visits is bounded by the workflow and the settings alone.** The bounds satisfy
their equation. Running a node adds no more visits than its bound, by itself, and as a part of
whatever else is going on in its world. A run adds no more than the bounds of the nodes that run at
top level, whether it completes or not. -/
theorem log_length_le {v : Value} (hload : Graph.load v = .ok g) (e : Engine) :
    (∀ n ∈ g.nodes, g.bound e.settings g.nodes.length n.id =
      n.bound e.settings (g.bound e.settings g.nodes.length)) ∧
    (∀ n ∈ g.nodes, ∀ context,
      (∀ l q, Process.Adds e.env e.transport (g.process e.settings g.depth n.id context) l q →
        l.length ≤ g.bound e.settings g.nodes.length n.id) ∧
      ∀ s, (e.executeNode g n.id context s).2.world.trace.size ≤
        s.world.trace.size + g.bound e.settings g.nodes.length n.id) ∧
    ∀ deadline initial s, (e.run g deadline initial s).world.trace.size ≤
      ((g.roots.map Node.id).map (g.bound e.settings g.nodes.length)).sum := by
  obtain ⟨-, hsound⟩ := Graph.sound_of_load hload
  refine ⟨fun n hn => Graph.bound_eq e.settings hsound hn, fun n hn context => ⟨?_, ?_⟩, ?_⟩
  · exact fun l q h => Graph.length_le_of_adds hsound ⟨n, hn, rfl⟩ h
  · intro s
    -- By itself the node is all that goes on in its run.
    have hstart := Instant.orderly_start s.clock s.world
      (g.process e.settings g.depth n.id context)
    have hlast : Instant.Reached e.env e.transport
        (Schedule.start s.clock s.world (g.process e.settings g.depth n.id context))
        (Instant.before (e.perform (g.turnBudget e.settings [n.id]) none
          (g.process e.settings g.depth n.id context) s)) := Instant.reached_run _ _
    obtain ⟨q, -, hruns⟩ :=
      Instant.runs_reached hstart (Instant.stands_start _ _ _ true) hlast
    obtain ⟨l, hl, hadds⟩ := hruns.adds
    have hle := Graph.length_le_of_adds hsound ⟨n, hn, rfl⟩ hadds
    have hsize := congrArg List.length hl
    rw [List.length_append, ← size_trace, ← size_trace] at hsize
    exact Nat.le_trans (Nat.le_of_eq hsize) (Nat.add_le_add_left hle _)
  · intro deadline initial s
    have hids : ∀ id ∈ g.roots.map Node.id, ∃ n ∈ g.nodes, n.id = id :=
      fun id hid => Graph.exists_of_mem_roots hid
    have hcut : g.CutRun e.settings (g.roots.map Node.id)
        (e.run g deadline initial s).world.log := cutRun_run hsound
    -- What is cut off only makes the log shorter.
    obtain ⟨w, hw, hle⟩ := hcut.exists_word hsound hids
    rw [size_trace]
    exact Nat.le_trans hle.length_le (hw.length_le hsound hids)

end Engine

/-- No run of these nodes makes more than three visits. -/
theorem forkNodes_length : ∃ g, Graph.load (.list forkNodes) = .ok g ∧ ∀ deadline initial s,
    (Engine.still.run g deadline initial s).world.trace.size ≤ 3 := by
  have hany : (Graph.load (.list forkNodes)).toOption.any (fun g =>
      decide (((g.roots.map Node.id).map (g.bound Settings.standard g.nodes.length)).sum = 3)) =
        true := by decide +kernel
  obtain ⟨g, hload, hsum⟩ := Graph.exists_load_of_any hany
  refine ⟨g, hload, fun deadline initial s => ?_⟩
  calc (Engine.still.run g deadline initial s).world.trace.size
      ≤ ((g.roots.map Node.id).map (g.bound Settings.standard g.nodes.length)).sum :=
        (Engine.log_length_le hload Engine.still).2.2 deadline initial s
    _ = 3 := of_decide_eq_true hsum

end Workgraph
