import Workgraph.Proofs.Engine.Failure
import Workgraph.Proofs.Entries
/-!
# Which variables a run may change

A node sets some variables by itself, and it goes on with the variables that the nodes of its task
leave, except that what a branch of a parallel node leaves is lost. So whatever the variables with
which a process may be done (`Process.Yields`), they differ from those at its start by no more than
what is set by the nodes to which it may come without taking a path of a parallel node.
-/

namespace Workgraph

/-! ## Tables that differ in some names -/

/-- The second table has all names of the first one, and the values of the two are the same but for
some names. -/
structure Entries.Frames {α : Type} (changed : String → Prop) (before after : Entries α) :
    Prop where
  kept : ∀ k, before.has k = true → after.has k = true
  same : ∀ k, ¬ changed k → after.get? k = before.get? k

namespace Entries.Frames

variable {α : Type} {changed : String → Prop} {before middle after : Entries α}

theorem refl (before : Entries α) : before.Frames changed before := ⟨fun _ h => h, fun _ _ => rfl⟩

theorem trans (h : before.Frames changed middle) (h' : middle.Frames changed after) :
    before.Frames changed after :=
  ⟨fun k hk => h'.kept k (h.kept k hk), fun k hk => (h'.same k hk).trans (h.same k hk)⟩

theorem mono {changed' : String → Prop} (hsub : ∀ k, changed k → changed' k)
    (h : before.Frames changed after) : before.Frames changed' after :=
  ⟨h.kept, fun k hk => h.same k fun hchanged => hk (hsub k hchanged)⟩

/-- What may change may be set. -/
theorem set (h : before.Frames changed after) {name : String} (hname : changed name) (v : α) :
    before.Frames changed (after.set name v) := by
  constructor
  · intro k hk
    by_cases hkn : k = name
    · rw [hkn, has, get?_set_self]
      rfl
    · rw [has, get?_set_of_ne hkn]
      exact h.kept k hk
  · intro k hk
    have hkn : k ≠ name := fun heq => hk (heq ▸ hname)
    rw [get?_set_of_ne hkn]
    exact h.same k hk

/-- A name that is new may change. -/
theorem has_or_changed (h : before.Frames changed after) {k : String} (hk : after.has k = true) :
    before.has k = true ∨ changed k := by
  by_cases hchanged : changed k
  · exact Or.inr hchanged
  · left
    rw [has, h.same k hchanged] at hk
    exact hk

end Entries.Frames

/-! ## The variables at the end of a process -/

namespace Process

/-- A process may be done with these variables. What its branches are done with does not matter. -/
inductive Yields : Process → Context → Prop where
  | done {context : Context} : Yields (.done context) context
  | visit {id type : String} {next : Unit → Process} {context : Context}
      (hnext : Yields (next ()) context) : Yields (.visit id type next) context
  | warn {words : String} {next : Unit → Process} {context : Context}
      (hnext : Yields (next ()) context) : Yields (.warn words next) context
  | store {request : StoreRequest} {next : Value → Process} {v : Value} {context : Context}
      (hnext : Yields (next v) context) : Yields (.store request next) context
  | call {request : CallRequest} {next : CallAnswer → Process} {answer : CallAnswer}
      {context : Context} (hnext : Yields (next answer) context) :
      Yields (.call request next) context
  | sleep {seconds : Binary64} {next : Unit → Process} {context : Context}
      (hnext : Yields (next ()) context) : Yields (.sleep seconds next) context
  | fork {branches : List Process} {next : Unit → Process} {context : Context}
      (hnext : Yields (next ()) context) : Yields (.fork branches next) context

section
variable {env : Surroundings} {transport : Transport} {context : Context}

/-- After a step there are no other variables to end with than before. -/
theorem Moves.yields {x y : World × Process} (h : Moves env transport x y)
    (hy : y.2.Yields context) : x.2.Yields context := by
  cases h with
  | visit => exact .visit hy
  | warn => exact .warn hy
  | answer => exact .store hy
  | refuse => cases hy
  | @call request next w =>
    simp only [afterCall] at hy
    cases houtcome : (transport request).outcome with
    | ok answer =>
      rw [houtcome] at hy
      exact .call hy
    | error f =>
      rw [houtcome] at hy
      cases hy
  | sleep => exact .sleep hy
  | branch =>
    cases hy with
    | fork hnext => exact .fork hnext
  | join => exact .fork hy
  | abort => cases hy

theorem Runs.yields {x y : World × Process} (h : Runs env transport x y)
    (hy : y.2.Yields context) : x.2.Yields context := by
  -- Backwards along the run, since what a step leaves is among what there was before it.
  induction h with
  | refl => exact hy
  | tail _ hmove ih => exact ih (hmove.yields hy)

end

namespace Yields

variable {context : Context} {p : Process}

theorem of_bind {k : Context → Process} (h : (p.bind k).Yields context) :
    ∃ middle, p.Yields middle ∧ (k middle).Yields context := by
  induction p with
  | done middle => exact ⟨middle, .done, h⟩
  | fail f => cases h
  | visit id type next ih =>
    cases h with
    | visit hnext =>
      obtain ⟨middle, hfirst, hrest⟩ := ih () hnext
      exact ⟨middle, .visit hfirst, hrest⟩
  | warn words next ih =>
    cases h with
    | warn hnext =>
      obtain ⟨middle, hfirst, hrest⟩ := ih () hnext
      exact ⟨middle, .warn hfirst, hrest⟩
  | store request next ih =>
    cases h with
    | store hnext =>
      obtain ⟨middle, hfirst, hrest⟩ := ih _ hnext
      exact ⟨middle, .store hfirst, hrest⟩
  | call request next ih =>
    cases h with
    | call hnext =>
      obtain ⟨middle, hfirst, hrest⟩ := ih _ hnext
      exact ⟨middle, .call hfirst, hrest⟩
  | sleep seconds next ih =>
    cases h with
    | sleep hnext =>
      obtain ⟨middle, hfirst, hrest⟩ := ih () hnext
      exact ⟨middle, .sleep hfirst, hrest⟩
  | fork branches next _ ih =>
    cases h with
    | fork hnext =>
      obtain ⟨middle, hfirst, hrest⟩ := ih () hnext
      exact ⟨middle, .fork hfirst, hrest⟩

theorem of_warnAll {words : List String} {q : Unit → Process}
    (h : (warnAll words q).Yields context) : (q ()).Yields context := by
  induction words with
  | nil => exact h
  | cons first rest ih =>
    cases h with
    | warn hnext => exact ih hnext

theorem of_ofExcept {α : Type} {result : Except Fault α} {k : α → Process}
    (h : (ofExcept result k).Yields context) : ∃ a, result = .ok a ∧ (k a).Yields context := by
  cases result with
  | ok a => exact ⟨a, rfl, h⟩
  | error f => cases h

theorem of_runFilled {run : String → Context → Process} {id : Option String} {start : Context}
    (h : (runFilled run id start).Yields context) :
    (∃ t, filled id = some t ∧ (run t start).Yields context) ∨
      (filled id = none ∧ context = start) := by
  unfold runFilled at h
  cases hid : filled id with
  | none =>
    rw [hid] at h
    cases h
    exact Or.inr ⟨rfl, rfl⟩
  | some t =>
    rw [hid] at h
    exact Or.inl ⟨t, rfl, h⟩

end Yields

end Process

/-! ## Nodes -/

/-- The variables that a task may set by itself. -/
def Task.sets : Task → List String
  | .apiCall c => [nameOr c.responseVariable "apiResponse", lastStatusKey]
  | .databaseQuery q => [nameOr q.resultVariable "dbResult"]
  | .dataTransform _ _ result => [nameOr result "transformed"]
  | .filter _ _ result => [nameOr result "filtered"]
  | .loop _ itemVariable _ _ => loopIndexKey :: (filled itemVariable).toList
  | _ => []

/-- The references of a task but for the paths of a parallel node. -/
def Task.directReferences : Task → List Reference
  | .parallel _ => []
  | task => task.references

namespace Node

/-- The variables that a node may set by itself. -/
def sets (n : Node) : List String :=
  match n.behaviour with
  | .known task _ => task.sets
  | .unknown .. => []

/-- The ids to which a node refers other than as a path of a parallel node. -/
def directTargets (n : Node) : List String :=
  ((match n.behaviour with
    | .known task _ => task.directReferences
    | .unknown .. => []) ++ Reference.ofField "nextNodeId" n.next).map Reference.target

variable {n : Node} {t : String}

theorem mem_directTargets_of_task {task : Task} {next : Option String}
    (hbehaviour : n.behaviour = .known task next)
    (ht : t ∈ task.directReferences.map Reference.target) : t ∈ n.directTargets := by
  simp only [directTargets, hbehaviour, List.map_append, List.mem_append]
  exact Or.inl ht

theorem mem_directTargets_of_next (ht : filled n.next = some t) : t ∈ n.directTargets := by
  simp only [directTargets, List.map_append, List.mem_append]
  exact Or.inr (mem_ofField ht)

theorem mem_targets_of_direct (ht : t ∈ n.directTargets) : t ∈ n.targets := by
  simp only [directTargets, List.map_append, List.mem_append] at ht
  rcases ht with ht | ht
  · cases hb : n.behaviour with
    | unknown type config =>
      rw [hb] at ht
      cases ht
    | known task next =>
      rw [hb] at ht
      apply mem_targets_of_task hb
      cases task with
      | parallel paths => cases ht
      | _ => exact ht
  · simp only [targets, references, List.map_append, List.mem_append]
    exact Or.inr ht

end Node

section
variable {changed : String → Prop} {context after : Context} {settings : Settings}
  {run : String → Context → Process}

/-- Running a node, if one is given, keeps a frame that running the node keeps. -/
theorem frames_runFilled {id : Option String}
    (hrun : ∀ t, filled id = some t → ∀ c c', (run t c).Yields c' → c.Frames changed c')
    (h : (runFilled run id context).Yields after) : context.Frames changed after := by
  rcases h.of_runFilled with ⟨t, hid, hyields⟩ | ⟨-, rfl⟩
  · exact hrun t hid context after hyields
  · exact .refl after

/-- The start of a turn sets the variables of the loop. -/
theorem frames_turnContext {itemVariable : Option String} (hindex : changed loopIndexKey)
    (hitem : ∀ name, filled itemVariable = some name → changed name) (index : Nat) (item : Value) :
    context.Frames changed (turnContext itemVariable index item context) := by
  have hnumbered : context.Frames changed (context.set loopIndexKey (.int index)) :=
    (Entries.Frames.refl context).set hindex _
  unfold turnContext
  cases hname : filled itemVariable with
  | none => exact hnumbered
  | some name => exact hnumbered.set (hitem name hname) item

/-- The turns of a loop keep a frame that its body keeps and that has the variables of the loop. -/
theorem frames_turns {itemVariable : Option String} {body : Context → Process}
    (hindex : changed loopIndexKey)
    (hitem : ∀ name, filled itemVariable = some name → changed name)
    (hbody : ∀ c c', (body c).Yields c' → c.Frames changed c') {items : List Value} {index : Nat}
    (h : (turns itemVariable body index items context).Yields after) :
    context.Frames changed after := by
  induction items generalizing index context with
  | nil =>
    cases h
    exact .refl _
  | cons item rest ih =>
    obtain ⟨middle, hfirst, hrest⟩ := h.of_bind
    -- A turn begins with the variables of the loop, and the next one with what the body leaves.
    have hstart : context.Frames changed (turnContext itemVariable index item context) :=
      frames_turnContext hindex hitem index item
    exact (hstart.trans (hbody _ _ hfirst)).trans (ih hrest)

/-- **A task changes what it sets, and what the nodes change** with whose variables it goes on. -/
theorem Task.frames {task : Task} {id : String} (hsets : ∀ k ∈ task.sets, changed k)
    (hrun : ∀ t ∈ task.directReferences.map Reference.target, ∀ c c',
      (run t c).Yields c' → c.Frames changed c')
    (h : (task.process settings run id context).Yields after) : context.Frames changed after := by
  have hself : context.Frames changed context := .refl context
  cases task with
  | trigger | output =>
    cases h
    exact hself
  | condition conditions elseNode =>
    obtain ⟨target, htarget, h⟩ := h.of_ofExcept
    have hchoice := Condition.choose_mem (eq_ok_of_liftDefect htarget)
    exact frames_runFilled (fun t ht => hrun t (mem_condition hchoice ht)) h
  | loop arrayField itemVariable loopNode maxIterations =>
    obtain ⟨v, -, h⟩ := h.of_ofExcept
    cases v with
    | list items =>
      -- The variables of the loop are set at the start of each turn, by the loop itself.
      have hindex : changed loopIndexKey := hsets _ List.mem_cons_self
      have hitem : ∀ name, filled itemVariable = some name → changed name := fun name hname =>
        hsets name (List.mem_cons_of_mem _ (Option.mem_toList.2 hname))
      refine frames_turns hindex hitem (fun c c' hbody => ?_) h.of_warnAll
      exact frames_runFilled (fun t ht => hrun t (mem_ofField ht)) hbody
    | null =>
      cases h
      exact hself
    | _ =>
      cases h with
      | warn hnext =>
        cases hnext
        exact hself
  | parallel paths =>
    -- Whatever the branches leave, the node goes on with the variables that it had.
    simp only [Task.process] at h
    split at h
    · cases h
      exact hself
    · cases h with
      | fork hnext =>
        cases hnext
        exact hself
  | apiCall c =>
    obtain ⟨request, -, h⟩ := h.of_ofExcept
    cases h with
    | call hnext =>
      cases hnext
      exact (hself.set (hsets _ (by simp [sets])) _).set (hsets _ (by simp [sets])) _
  | databaseQuery q =>
    have hname : changed (nameOr q.resultVariable "dbResult") := hsets _ List.mem_cons_self
    simp only [Task.process, DatabaseQuery.process] at h
    split at h
    · cases h with
      | store hnext =>
        cases hnext
        exact hself.set hname _
    · cases h with
      | store hnext =>
        cases hnext with
        | warn hnext =>
          cases hnext
          exact hself.set hname _
  | dataTransform source steps result =>
    obtain ⟨v, -, h⟩ := h.of_ofExcept
    cases h
    exact hself.set (hsets _ List.mem_cons_self) v
  | filter source conditions result =>
    obtain ⟨kept, -, h⟩ := h.of_ofExcept
    cases h
    exact hself.set (hsets _ List.mem_cons_self) (.list kept)
  | delay duration unit =>
    simp only [Task.process] at h
    split at h
    · cases h with
      | sleep hnext =>
        cases hnext
        exact hself
    · cases h
      exact hself

end

namespace Graph

variable {g : Graph} {settings : Settings} {context after : Context}

/-- The first id is that of a node that refers to the second one other than as a path of a parallel
node. -/
def Continues (g : Graph) (a b : String) : Prop := ∃ n ∈ g.nodes, n.id = a ∧ b ∈ n.directTargets

/-- A name is one that a node may set to which there is a way from an id that takes no path of a
parallel node. -/
def SetsFrom (g : Graph) (id k : String) : Prop :=
  ∃ n ∈ g.nodes, Relation.ReflTransGen g.Continues id n.id ∧ k ∈ n.sets

/-- A name is one that a run may set: there is such a way from a node that runs at top level. -/
def Sets (g : Graph) (k : String) : Prop := ∃ r ∈ g.roots, g.SetsFrom r.id k

/-- Of ids that have those of the top level, and with each id those with which its node goes on, only
the nodes matter. -/
theorem Sets.exists_mem {k : String} (h : g.Sets k) {ids : List String}
    (hroots : ∀ r ∈ g.roots, r.id ∈ ids)
    (hclosed : ∀ n ∈ g.nodes, n.id ∈ ids → ∀ t ∈ n.directTargets, t ∈ ids) :
    ∃ n ∈ g.nodes, n.id ∈ ids ∧ k ∈ n.sets := by
  obtain ⟨r, hr, n, hn, hway, hk⟩ := h
  have hids : ∀ id, Relation.ReflTransGen g.Continues r.id id → id ∈ ids := by
    intro id hway
    induction hway with
    | refl => exact hroots r hr
    | tail _ hrefers ih =>
      obtain ⟨m, hm, rfl, ht⟩ := hrefers
      exact hclosed m hm ih _ ht
  exact ⟨n, hn, hids n.id hway, hk⟩

/-- **Running a node changes no variables but those that are set** on its way. -/
theorem frames_process (hsound : g.Sound) {id : String} (hid : ∃ n ∈ g.nodes, n.id = id) :
    ∀ {context after}, (g.process settings g.depth id context).Yields after →
      context.Frames (g.SetsFrom id) after := by
  refine hsound.induction (P := fun id => ∀ {context after},
    (g.process settings g.depth id context).Yields after →
      context.Frames (g.SetsFrom id) after) (fun n hn ih context after h => ?_) hid
  have htargets : ∀ t ∈ n.directTargets, ∀ c c', (g.process settings g.depth t c).Yields c' →
      c.Frames (g.SetsFrom n.id) c' := by
    intro t ht c c' hyields
    refine (ih t (Node.mem_targets_of_direct ht) hyields).mono ?_
    rintro k ⟨m, hm, hway, hk⟩
    exact ⟨m, hm, hway.head ⟨n, hn, rfl, ht⟩, hk⟩
  rw [process_depth hsound (hsound.find?_id hn)] at h
  cases h with
  | visit hnext =>
    -- The node to go on with starts from the variables that the task leaves.
    obtain ⟨middle, htask, hrest⟩ := hnext.of_bind
    have hfirst : context.Frames (g.SetsFrom n.id) middle := by
      cases hb : n.behaviour with
      | known task next =>
        rw [hb] at htask
        refine Task.frames (fun k hk => ⟨n, hn, .refl, ?_⟩)
          (fun t ht => htargets t (Node.mem_directTargets_of_task hb ht)) htask
        rw [Node.sets, hb]
        exact hk
      | unknown type config =>
        rw [hb] at htask
        cases htask with
        | warn hdone =>
          cases hdone
          exact .refl _
    exact hfirst.trans
      (frames_runFilled (fun t ht => htargets t (Node.mem_directTargets_of_next ht)) hrest)

theorem frames_processAll (hsound : g.Sound) {changed : String → Prop} {ns : List Node}
    (hns : ns ⊆ g.nodes) (hchanged : ∀ n ∈ ns, ∀ k, g.SetsFrom n.id k → changed k)
    (h : (g.processAll settings g.depth (ns.map Node.id) context).Yields after) :
    context.Frames changed after := by
  induction ns generalizing context with
  | nil =>
    cases h
    exact .refl _
  | cons n rest ih =>
    obtain ⟨hn, hrest⟩ := List.cons_subset.1 hns
    obtain ⟨middle, hnode, hothers⟩ := h.of_bind
    have hfirst : context.Frames changed middle :=
      (frames_process hsound ⟨n, hn, rfl⟩ hnode).mono (hchanged n List.mem_cons_self)
    exact hfirst.trans
      (ih hrest (fun m hm => hchanged m (List.mem_cons_of_mem n hm)) hothers)

end Graph

/-! ## Runs -/

/-- **A run that completes changes no variables but those that its nodes may set** on a way from the
top level that takes no path of a parallel node. All other variables are as they were, whatever the
branches of parallel nodes did, and no variable is lost. -/
theorem Engine.completed_frame {g : Graph} {v : Value} (hload : Graph.load v = .ok g) (e : Engine)
    (deadline : Option Binary64) (initial : Context) (s : Scene) {final : Context}
    (hcompleted : (e.run g deadline initial s).result = .completed final) :
    (∀ k, final.has k = true → initial.has k = true ∨ g.Sets k) ∧
    (∀ k, initial.has k = true → final.has k = true) ∧
    ∀ k, ¬ g.Sets k → final.get? k = initial.get? k := by
  obtain ⟨-, hsound⟩ := Graph.sound_of_load hload
  have hyields : (g.processAll e.settings g.depth (g.roots.map Node.id) initial).Yields final :=
    (runs_of_completed hcompleted).yields .done
  have hframes : initial.Frames g.Sets final :=
    Graph.frames_processAll hsound (fun n hn => Graph.mem_of_mem_roots hn)
      (fun r hr k hk => ⟨r, hr, hk⟩) hyields
  exact ⟨fun k hk => hframes.has_or_changed hk, hframes.kept, hframes.same⟩

/-- The query in a branch of these nodes leaves its result in a variable, and after the run the
variable is as it was before. -/
theorem forkNodes_frame : ∃ g final, Graph.load (.list forkNodes) = .ok g ∧
    (Engine.still.run g none [("dbResult", .int 7)] Scene.stocked).result = .completed final ∧
    (∃ n ∈ g.nodes, "dbResult" ∈ n.sets) ∧ final.get? "dbResult" = some (.int 7) := by
  have hany : (Graph.load (.list forkNodes)).toOption.any (fun g =>
      decide ((∃ n ∈ g.nodes, "dbResult" ∈ n.sets) ∧ (∀ r ∈ g.roots, r.id ∈ ["p"]) ∧
        ∀ n ∈ g.nodes, n.id ∈ ["p"] → "dbResult" ∉ n.sets ∧ ∀ t ∈ n.directTargets, t ∈ ["p"]) &&
      (Engine.still.run g none [("dbResult", .int 7)] Scene.stocked).result.final?.isSome) =
        true := by decide +kernel
  obtain ⟨g, hload, hchecked⟩ := Graph.exists_load_of_any hany
  obtain ⟨hnodes, hcompletes⟩ := Bool.and_eq_true_iff.1 hchecked
  obtain ⟨hsets, hroots, hclosed⟩ := of_decide_eq_true hnodes
  obtain ⟨final, hfinal⟩ := Option.isSome_iff_exists.1 hcompletes
  have hcompleted := RunResult.eq_completed hfinal
  have hnot : ¬ g.Sets "dbResult" := by
    intro hset
    obtain ⟨n, hn, hid, hk⟩ := hset.exists_mem hroots fun n hn hid => (hclosed n hn hid).2
    exact (hclosed n hn hid).1 hk
  have hframe := Engine.completed_frame hload Engine.still none _ Scene.stocked hcompleted
  exact ⟨g, final, hload, hcompleted, hsets, hframe.2.2 "dbResult" hnot⟩

end Workgraph
