import Workgraph.Proofs.Engine.Moves
import Workgraph.Proofs.Engine.Nesting
/-!
# What holds of all parts of a process

A demand says what may go wrong in a process, which requests it may make and which branches it may
have, each with the nodes that have been visited on the way. A process meets a demand if all its
parts do (`Process.Meets`), whichever answers it gets. The processes of a workflow meet a demand if
what each node does by itself does (`Graph.meets_process`).
-/

namespace Workgraph

/-- What is demanded of the parts of a process, of which some nodes have been visited before. -/
structure Demand where
  fault : List String → Fault → Prop
  store : List String → StoreRequest → Prop
  call : List String → CallRequest → Prop
  fork : List Process → Prop
  fault_mono : ∀ {seen seen' f}, seen ⊆ seen' → fault seen f → fault seen' f
  store_mono : ∀ {seen seen' r}, seen ⊆ seen' → store seen r → store seen' r
  call_mono : ∀ {seen seen' r}, seen ⊆ seen' → call seen r → call seen' r

namespace Process

/-- What a process has that is put together of processes that have it, one after another. -/
structure Closed (P : Process → Prop) : Prop where
  done : ∀ context, P (.done context)
  warn : ∀ {words next}, P (next ()) → P (.warn words next)
  bind : ∀ {p k}, P p → (∀ context, P (k context)) → P (p.bind k)

namespace Closed

variable {P : Process → Prop}

theorem warnAll (hP : Closed P) {words : List String} {q : Unit → Process} (h : P (q ())) :
    P (warnAll words q) := by
  induction words with
  | nil => exact h
  | cons first rest ih => exact hP.warn ih

theorem turns (hP : Closed P) {itemVariable : Option String} {body : Context → Process}
    (h : ∀ context, P (body context)) (items : List Value) :
    ∀ (index : Nat) (context : Context), P (turns itemVariable body index items context) := by
  induction items with
  | nil =>
    intro index context
    exact hP.done context
  | cons item rest ih =>
    intro index context
    apply hP.bind
    · exact h _
    · exact ih (index + 1)

theorem runFilled (hP : Closed P) {run : String → Context → Process} {id : Option String}
    (h : ∀ t, filled id = some t → ∀ context, P (run t context)) (context : Context) :
    P (runFilled run id context) := by
  unfold Workgraph.runFilled
  cases hid : filled id with
  | none => exact hP.done context
  | some t => exact h t hid context

end Closed

/-- A process all of whose parts meet a demand. -/
inductive Meets (D : Demand) : List String → Process → Prop where
  | done {seen : List String} {context : Context} : Meets D seen (.done context)
  | fail {seen : List String} {f : Fault} (hfault : D.fault seen f) : Meets D seen (.fail f)
  | visit {seen : List String} {id type : String} {next : Unit → Process}
      (hnext : Meets D (id :: seen) (next ())) : Meets D seen (.visit id type next)
  | warn {seen : List String} {words : String} {next : Unit → Process}
      (hnext : Meets D seen (next ())) : Meets D seen (.warn words next)
  | store {seen : List String} {request : StoreRequest} {next : Value → Process}
      (hstore : D.store seen request) (hnext : ∀ v, Meets D seen (next v)) :
      Meets D seen (.store request next)
  | call {seen : List String} {request : CallRequest} {next : CallAnswer → Process}
      (hcall : D.call seen request) (hnext : ∀ a, Meets D seen (next a)) :
      Meets D seen (.call request next)
  | sleep {seen : List String} {seconds : Binary64} {next : Unit → Process}
      (hnext : Meets D seen (next ())) : Meets D seen (.sleep seconds next)
  | fork {seen : List String} {branches : List Process} {next : Unit → Process}
      (hfork : D.fork branches) (hbranches : ∀ b ∈ branches, Meets D seen b)
      (hnext : Meets D seen (next ())) : Meets D seen (.fork branches next)

namespace Meets

variable {D : Demand} {seen seen' : List String} {p : Process}

theorem mono (h : Meets D seen p) (hsub : seen ⊆ seen') : Meets D seen' p := by
  induction h generalizing seen' with
  | done => exact .done
  | fail hfault => exact .fail (D.fault_mono hsub hfault)
  | visit _ ih => exact .visit (ih (List.cons_subset_cons _ hsub))
  | warn _ ih => exact .warn (ih hsub)
  | store hstore _ ih => exact .store (D.store_mono hsub hstore) fun v => ih v hsub
  | call hcall _ ih => exact .call (D.call_mono hsub hcall) fun a => ih a hsub
  | sleep _ ih => exact .sleep (ih hsub)
  | fork hfork _ _ ihbranches ih =>
    exact .fork hfork (fun b hb => ihbranches b hb hsub) (ih hsub)

/-- A process meets a demand that follows from one that it meets, wherever nodes have been visited. -/
theorem imp {D' : Demand} (hfault : ∀ {s s' f}, D.fault s f → D'.fault s' f)
    (hstore : ∀ {s s' r}, D.store s r → D'.store s' r)
    (hcall : ∀ {s s' r}, D.call s r → D'.call s' r)
    (hfork : ∀ {branches}, (∀ b ∈ branches, ∃ s, Meets D s b) → D.fork branches → D'.fork branches)
    (h : Meets D seen p) : Meets D' seen' p := by
  induction h generalizing seen' with
  | done => exact .done
  | fail hbad => exact .fail (hfault hbad)
  | visit _ ih => exact .visit ih
  | warn _ ih => exact .warn ih
  | store hasks _ ih => exact .store (hstore hasks) fun v => ih v
  | call hasks _ ih => exact .call (hcall hasks) fun a => ih a
  | sleep _ ih => exact .sleep ih
  | fork hforks hbranches _ ihbranches ih =>
    exact .fork (hfork (fun b hb => ⟨_, hbranches b hb⟩) hforks) (fun b hb => ihbranches b hb) ih

theorem bind {k : Context → Process} (h : Meets D seen p) (hk : ∀ c, Meets D seen (k c)) :
    Meets D seen (p.bind k) := by
  induction h with
  | done => exact hk _
  | fail hfault => exact .fail hfault
  | visit _ ih =>
    -- What follows meets the demand all the more once another node has been visited.
    apply Meets.visit
    apply ih
    intro c
    exact (hk c).mono (List.subset_cons_self _ _)
  | warn _ ih => exact .warn (ih hk)
  | store hstore _ ih => exact .store hstore fun v => ih v hk
  | call hcall _ ih => exact .call hcall fun a => ih a hk
  | sleep _ ih => exact .sleep (ih hk)
  | fork hfork hbranches _ _ ih => exact .fork hfork hbranches (ih hk)

theorem closed : Closed (Meets D seen) where
  done _ := .done
  warn h := .warn h
  bind h hk := h.bind hk

end Meets

end Process

/-! ## Nodes -/

/-- What a node does by itself: of the nodes that it schedules none does anything. -/
def Node.handler (n : Node) (settings : Settings) (context : Context) : Process :=
  n.behaviour.process settings (fun _ c => .done c) n.id context

section
variable {D : Demand} {seen : List String} {settings : Settings}
  {run : String → Context → Process}

/-- What holds of a task by itself holds of it together with the nodes that it runs, if it follows
from what holds of them wherever they are run, and if it holds of the fork of a parallel node. -/
theorem Task.of_parts {P Q : Process → Prop} (hQ : Process.Closed Q) (hle : ∀ {p}, Q p → P p)
    {task : Task} {id : String} {context : Context}
    (hself : P (task.process settings (fun _ c => .done c) id context))
    (hrun : ∀ t ∈ task.references.map Reference.target, ∀ c, Q (run t c))
    (hfork : ∀ paths, task = .parallel paths →
      P (.fork ((paths.filterMap filled).map fun t => run t context) fun _ => .done context)) :
    P (task.process settings run id context) := by
  cases task with
  | condition conditions elseNode =>
    simp only [Task.process] at hself ⊢
    cases hchoice : Condition.choose context elseNode conditions with
    | error d =>
      rw [hchoice] at hself
      exact hself
    | ok target =>
      apply hle
      apply hQ.runFilled
      intro t ht
      exact hrun t (mem_condition (Condition.choose_mem hchoice) ht)
  | loop arrayField itemVariable loopNode maxIterations =>
    simp only [Task.process, loopProcess] at hself ⊢
    cases hitems : variableAt context arrayField with
    | error d =>
      rw [hitems] at hself
      exact hself
    | ok v =>
      -- Once the variable has been read only the body can fail, and of that `Q` is known.
      apply hle
      cases v with
      | list items =>
        apply hQ.warnAll
        apply hQ.turns
        intro c
        exact hQ.runFilled (fun t ht => hrun t (mem_ofField ht)) c
      | null => exact hQ.done context
      | _ => exact hQ.warn (hQ.done context)
  | parallel paths =>
    have hpaths := hfork paths rfl
    simp only [Task.process]
    split
    · exact hle (hQ.done context)
    · exact hpaths
  | _ => exact hself

/-- A task meets a demand if it does so by itself and the nodes do that it runs. -/
theorem Task.meets {task : Task} {id : String} {context : Context}
    (hself : (task.process settings (fun _ c => .done c) id context).Meets D seen)
    (hrun : ∀ t ∈ task.references.map Reference.target, ∀ c, (run t c).Meets D seen)
    (hfork : ∀ paths, task = .parallel paths →
      D.fork ((paths.filterMap filled).map fun t => run t context)) :
    (task.process settings run id context).Meets D seen := by
  refine Task.of_parts Process.Meets.closed (fun h => h) hself hrun fun paths hpaths => ?_
  subst hpaths
  apply Process.Meets.fork (hfork paths rfl) _ .done
  intro b hb
  obtain ⟨t, ht, rfl⟩ := List.mem_map.1 hb
  exact hrun t (mem_parallel ht) context

end

namespace Graph

variable {g : Graph} {D : Demand} {settings : Settings}

/-- The second id is one to which a node of the first one may come. -/
def Leads (g : Graph) : String → String → Prop := Relation.ReflTransGen g.Refers

/-- **The process of a node meets a demand** if all nodes to which it may come do so by themselves
and the branches of the parallel ones are as demanded. -/
theorem meets_process (hsound : g.Sound) {id : String} (hid : ∃ n ∈ g.nodes, n.id = id)
    (hself : ∀ n ∈ g.nodes, g.Leads id n.id → ∀ seen context, n.id ∈ seen →
      (n.handler settings context).Meets D seen)
    (hfork : ∀ n ∈ g.nodes, g.Leads id n.id → ∀ paths next,
      n.behaviour = .known (.parallel paths) next → ∀ context,
        D.fork ((paths.filterMap filled).map fun t => g.process settings g.depth t context)) :
    ∀ seen context, (g.process settings g.depth id context).Meets D seen := by
  -- What is demanded of the nodes below follows from what is demanded here, so it is part of what
  -- the induction is about.
  revert hself hfork
  refine hsound.induction (P := fun id =>
    (∀ n ∈ g.nodes, g.Leads id n.id → ∀ seen context, n.id ∈ seen →
      (n.handler settings context).Meets D seen) →
    (∀ n ∈ g.nodes, g.Leads id n.id → ∀ paths next,
      n.behaviour = .known (.parallel paths) next → ∀ context,
        D.fork ((paths.filterMap filled).map fun t => g.process settings g.depth t context)) →
    ∀ seen context, (g.process settings g.depth id context).Meets D seen) ?_ hid
  intro n hn ih hself hfork seen context
  have htargets : ∀ t ∈ n.targets, ∀ seen c, (g.process settings g.depth t c).Meets D seen := by
    intro t ht
    have hleads : ∀ {m}, g.Leads t m → g.Leads n.id m := fun h =>
      Relation.ReflTransGen.head ⟨n, hn, rfl, ht⟩ h
    exact ih t ht (fun m hm hlead => hself m hm (hleads hlead))
      (fun m hm hlead => hfork m hm (hleads hlead))
  rw [process_depth hsound (hsound.find?_id hn)]
  -- The node has been visited when its handler starts.
  have hown := hself n hn Relation.ReflTransGen.refl (n.id :: seen) context List.mem_cons_self
  apply Process.Meets.visit
  apply Process.Meets.bind
  · cases hb : n.behaviour with
    | known task next =>
      rw [Node.handler, hb] at hown
      refine Task.meets hown (fun t ht => htargets t (Node.mem_targets_of_task hb ht) _)
        fun paths hpaths => ?_
      rw [hpaths] at hb
      exact hfork n hn Relation.ReflTransGen.refl paths next hb context
    | unknown type config => exact .warn .done
  · intro c
    exact Process.Meets.closed.runFilled (fun t ht => htargets t (Node.mem_targets_of_next ht) _) c

/-- The processes of several nodes meet a demand if each of them does. -/
theorem meets_processAll {depth : Nat} {ids : List String}
    (h : ∀ id ∈ ids, ∀ seen context, (g.process settings depth id context).Meets D seen) :
    ∀ seen context, (g.processAll settings depth ids context).Meets D seen := by
  induction ids with
  | nil =>
    intro seen context
    exact .done
  | cons id rest ih =>
    intro seen context
    apply Process.Meets.bind
    · exact h id List.mem_cons_self seen context
    · exact ih (fun i hi => h i (List.mem_cons_of_mem id hi)) seen

end Graph

end Workgraph
