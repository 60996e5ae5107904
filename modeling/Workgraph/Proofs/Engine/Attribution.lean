import Workgraph.Proofs.Engine.Failure
/-!
# To which node a failure is put down

The report on a run that fails with a defect names the node that was visited last. A node fails with
the first thing that it does after its visit. So the report names the node that failed, as long as
nothing else went on at that time (`Process.Runs.told`). If a parallel node has several paths, its
other branches may make visits before the failure gets to the end of the run. Then the node that is
named may be one that cannot fail at all (`spoiltNodes_misnamed`).
-/

namespace Workgraph

/-- The ids of the nodes that have been visited, the last one first. -/
def World.visited (w : World) : List String := (w.trace.toList.map TraceEntry.nodeId).reverse

namespace World

variable {w w' : World}

theorem visited_enter (w : World) (env : Surroundings) (id type : String) :
    (w.enter env id type).visited = id :: w.visited := by
  simp [visited, enter]

theorem hasVisited_visited (w : World) : w.HasVisited w.visited := by
  intro id hid
  rw [visited, List.mem_reverse] at hid
  obtain ⟨t, ht, rfl⟩ := List.mem_map.1 hid
  exact ⟨t, ht, rfl⟩

theorem Grows.visited_subset (h : w.Grows w') : w.visited ⊆ w'.visited := by
  intro id hid
  rw [visited, List.mem_reverse] at hid ⊢
  obtain ⟨t, ht, rfl⟩ := List.mem_map.1 hid
  exact List.mem_map_of_mem (h.subset ht)

theorem head?_visited (w : World) : w.visited.head? = (w.trace.back?).map TraceEntry.nodeId := by
  rw [visited, List.head?_reverse, List.getLast?_map, Array.getLast?_toList]

end World

/-! ## Processes -/

namespace Process

variable {env : Surroundings} {transport : Transport} {within : World → Prop}
  {accounts : Bool → List String → Fault → Prop} {alone : Bool} {seen seen' : List String}
  {p : Process}

/-- All faults that may come up in a process within some worlds are accounted for by the nodes that
have been visited before, the last one first. It matters whether the process is alone. The only
branch of a fork is alone if the fork is, and of several branches none is. After a fork any nodes
may have been visited. -/
inductive Told (env : Surroundings) (transport : Transport) (within : World → Prop)
    (accounts : Bool → List String → Fault → Prop) : Bool → List String → Process → Prop where
  | done {alone : Bool} {seen : List String} {context : Context} :
      Told env transport within accounts alone seen (.done context)
  | fail {alone : Bool} {seen : List String} {f : Fault}
      (hfault : ∀ w, within w → w.HasVisited seen → accounts alone seen f) :
      Told env transport within accounts alone seen (.fail f)
  | visit {alone : Bool} {seen : List String} {id type : String} {next : Unit → Process}
      (hnext : Told env transport within accounts alone (id :: seen) (next ())) :
      Told env transport within accounts alone seen (.visit id type next)
  | warn {alone : Bool} {seen : List String} {words : String} {next : Unit → Process}
      (hnext : Told env transport within accounts alone seen (next ())) :
      Told env transport within accounts alone seen (.warn words next)
  | store {alone : Bool} {seen : List String} {request : StoreRequest} {next : Value → Process}
      (hfault : ∀ w f repository, within w → w.HasVisited seen →
        w.repository.perform env request.entity request.action = (.error f, repository) →
          accounts alone seen f)
      (hnext : ∀ v, Told env transport within accounts alone seen (next v)) :
      Told env transport within accounts alone seen (.store request next)
  | call {alone : Bool} {seen : List String} {request : CallRequest} {next : CallAnswer → Process}
      (hfault : ∀ w f, within w → w.HasVisited seen →
        (transport request).outcome = .error f → accounts alone seen f)
      (hnext : ∀ a, Told env transport within accounts alone seen (next a)) :
      Told env transport within accounts alone seen (.call request next)
  | sleep {alone : Bool} {seen : List String} {seconds : Binary64} {next : Unit → Process}
      (hnext : Told env transport within accounts alone seen (next ())) :
      Told env transport within accounts alone seen (.sleep seconds next)
  | fork {alone inner : Bool} {seen : List String} {branches : List Process} {next : Unit → Process}
      (hinner : inner = true → alone = true ∧ branches.length ≤ 1)
      (hbranches : ∀ b ∈ branches, Told env transport within accounts inner seen b)
      (hnext : ∀ seen', Told env transport within accounts alone seen' (next ())) :
      Told env transport within accounts alone seen (.fork branches next)

namespace Told

/-- Of the branches of a fork none has to be alone. -/
theorem crowd {branches : List Process} {next : Unit → Process}
    (hbranches : ∀ b ∈ branches, Told env transport within accounts false seen b)
    (hnext : ∀ seen', Told env transport within accounts alone seen' (next ())) :
    Told env transport within accounts alone seen (.fork branches next) :=
  .fork (fun h => by cases h) hbranches hnext

/-- Nothing has to be accounted for where nothing can go wrong. -/
theorem of_safe (h : p.Meets .safe seen') : Told env transport within accounts alone seen p := by
  induction h generalizing alone seen with
  | done => exact .done
  | fail hfault => exact hfault.elim
  | visit _ ih => exact .visit ih
  | warn _ ih => exact .warn ih
  | store hstore _ _ => exact hstore.elim
  | call hcall _ _ => exact hcall.elim
  | sleep _ ih => exact .sleep ih
  | fork _ _ _ ihbranches ih => exact .crowd (fun b hb => ihbranches b hb) fun _ => ih

theorem bind {k : Context → Process} (h : Told env transport within accounts alone seen p)
    (hk : ∀ seen c, Told env transport within accounts alone seen (k c)) :
    Told env transport within accounts alone seen (p.bind k) := by
  induction h with
  | done => exact hk _ _
  | fail hfault => exact .fail hfault
  | visit _ ih => exact .visit (ih hk)
  | warn _ ih => exact .warn (ih hk)
  | store hfault _ ih => exact .store hfault fun v => ih v hk
  | call hfault _ ih => exact .call hfault fun a => ih a hk
  | sleep _ ih => exact .sleep (ih hk)
  | fork hinner hbranches _ _ ih => exact .fork hinner hbranches fun seen' => ih seen' hk

theorem closed : Closed fun p => ∀ seen, Told env transport within accounts alone seen p where
  done _ _ := .done
  warn h seen := .warn (h seen)
  bind h hk seen := (h seen).bind fun seen c => hk c seen

/-- What is accounted for beside other things is so after any visits. -/
theorem mono (hfar : ∀ {alone seen seen' f}, accounts false seen f → accounts alone seen' f)
    (h : Told env transport within accounts alone seen p) (halone : alone = false)
    (hsub : seen ⊆ seen') : Told env transport within accounts alone seen' p := by
  have hvisited : ∀ {s s' : List String}, s ⊆ s' → ∀ {w : World}, w.HasVisited s' → w.HasVisited s :=
    fun hss w hw id hid => hw id (hss hid)
  induction h generalizing seen' with
  | done => exact .done
  | fail hfault =>
    subst halone
    exact .fail fun w hin hw => hfar (hfault w hin (hvisited hsub hw))
  | visit _ ih => exact .visit (ih halone (List.cons_subset_cons _ hsub))
  | warn _ ih => exact .warn (ih halone hsub)
  | store hfault _ ih =>
    subst halone
    exact .store (fun w f repository hin hw hperform =>
      hfar (hfault w f repository hin (hvisited hsub hw) hperform)) fun v => ih v rfl hsub
  | call hfault _ ih =>
    subst halone
    exact .call (fun w f hin hw houtcome => hfar (hfault w f hin (hvisited hsub hw) houtcome))
      fun a => ih a rfl hsub
  | sleep _ ih => exact .sleep (ih halone hsub)
  | @fork _ inner _ _ _ hinner _ hnext ihbranches _ =>
    -- No branch is alone where the fork is not.
    have hcrowd : inner = false := by
      cases inner with
      | false => rfl
      | true =>
        rw [halone] at hinner
        exact (hinner rfl).1.symm
    exact .fork hinner (fun b hb => ihbranches b hb hcrowd hsub) hnext

/-- A failure of a branch is one of the fork. -/
theorem of_branch (hfar : ∀ {alone seen seen' f}, accounts false seen f → accounts alone seen' f)
    {inner : Bool} (hinner : inner = true → alone = true) {f : Fault}
    (h : Told env transport within accounts inner seen (.fail f)) :
    Told env transport within accounts alone seen (.fail f) := by
  cases h with
  | fail hfault =>
    apply Told.fail
    intro w hin hw
    have hthere := hfault w hin hw
    cases inner with
    | false => exact hfar hthere
    | true =>
      rw [hinner rfl]
      exact hthere

end Told

/-- **After a step the faults that may still come up are accounted for** by the nodes that have been
visited by then. -/
theorem Moves.told (hfar : ∀ {alone seen seen' f}, accounts false seen f → accounts alone seen' f)
    {x y : World × Process} (h : Moves env transport x y) (hin : within x.1)
    (hx : Told env transport within accounts alone x.1.visited x.2) :
    Told env transport within accounts alone y.1.visited y.2 := by
  -- By induction on the step, for the branches of a fork. The nodes that have been visited are those
  -- of the world, so a visit of one branch concerns the others, too. They are not alone.
  induction h generalizing alone with
  | visit =>
    cases hx with
    | visit hnext =>
      rw [World.visited_enter]
      exact hnext
  | warn =>
    cases hx with
    | warn hnext => exact hnext
  | answer hperform =>
    cases hx with
    | store hfault hnext => exact hnext _
  | @refuse request next w f repository hperform =>
    cases hx with
    | store hfault hnext =>
      exact .fail fun _ _ _ => hfault w f repository hin w.hasVisited_visited hperform
  | @call request next w =>
    cases hx with
    | call hfault hnext =>
      simp only [afterCall]
      cases houtcome : (transport request).outcome with
      | ok answer => exact hnext answer
      | error f => exact .fail fun _ _ _ => hfault w f hin w.hasVisited_visited houtcome
  | sleep =>
    cases hx with
    | sleep hnext => exact hnext
  | @branch before after p p' next w w' hbranch ih =>
    cases hx with
    | @fork _ inner _ _ _ hinner hbranches hnext =>
      have hgrows : w.visited ⊆ w'.visited := hbranch.grows.visited_subset
      have hothers : ∀ b ∈ before ++ after,
          Told env transport within accounts inner w'.visited b := by
        intro b hb
        have hmem : b ∈ before ++ p :: after := by
          rcases List.mem_append.1 hb with hbefore | hafter
          · exact List.mem_append_left _ hbefore
          · exact List.mem_append_right _ (List.mem_cons_of_mem _ hafter)
        -- Since the fork has another branch, it is not alone.
        have hcrowd : inner = false := by
          cases inner with
          | false => rfl
          | true =>
            have hlength := (hinner rfl).2
            have hpos := List.length_pos_of_mem hb
            simp only [List.length_append, List.length_cons] at hlength hpos
            omega
        exact (hbranches b hmem).mono hfar hcrowd hgrows
      have hbranches' : ∀ b ∈ before ++ p' :: after,
          Told env transport within accounts inner w'.visited b := by
        intro b hb
        rcases List.mem_append.1 hb with hbefore | hb
        · exact hothers b (List.mem_append_left _ hbefore)
        · rcases List.mem_cons.1 hb with rfl | hafter
          · exact ih hin (hbranches p (by simp))
          · exact hothers b (List.mem_append_right _ hafter)
      refine .fork (fun h => ?_) hbranches' hnext
      obtain ⟨halone, hlength⟩ := hinner h
      simp only [List.length_append, List.length_cons] at hlength ⊢
      exact ⟨halone, hlength⟩
  | join =>
    cases hx with
    | fork _ _ hnext => exact hnext _
  | abort hfailed =>
    cases hx with
    | fork hinner hbranches _ =>
      exact (hbranches _ hfailed).of_branch hfar fun h => (hinner h).1

/-- A world is one between two points of the steps of a process. -/
def Between (env : Surroundings) (transport : Transport) (x z : World × Process) (w : World) :
    Prop :=
  ∃ q, Runs env transport x (w, q) ∧ Runs env transport (w, q) z

/-- **Whatever steps a process takes**, the faults that may still come up are accounted for. -/
theorem Runs.told (hfar : ∀ {alone seen seen' f}, accounts false seen f → accounts alone seen' f)
    {x z : World × Process} (h : Runs env transport x z)
    (hx : Told env transport (Between env transport x z) accounts alone x.1.visited x.2) :
    Told env transport (Between env transport x z) accounts alone z.1.visited z.2 := by
  -- Each world on the way is one between the two points, since the rest of the way is known.
  have hall : ∀ y, Runs env transport x y → Runs env transport y z →
      Told env transport (Between env transport x z) accounts alone y.1.visited y.2 := by
    intro y hxy
    induction hxy with
    | refl => exact fun _ => hx
    | @tail y y' hxy hmove ih =>
      intro hyz
      have hrest : Runs env transport y z := (Runs.move hmove).trans hyz
      exact hmove.told hfar ⟨y.2, hxy, hrest⟩ (ih hrest)
  exact hall z h (Runs.refl z)

/-- The faults of a process that fails with the first thing it does are accounted for if what it
comes to at once is. -/
theorem Acts.told {S : StoreRequest → Prop} (h : p.Acts S)
    (hfault : ∀ w w' f, within w → w.HasVisited seen → Runs env transport (w, p) (w', .fail f) →
      accounts alone seen f) : Told env transport within accounts alone seen p := by
  cases h with
  | safe hsafe => exact .of_safe hsafe
  | fail => exact .fail fun w hin hw => hfault w w _ hin hw (.refl _)
  | store _ hnext =>
    refine .store (fun w f repository hin hw hperform => ?_) fun v => .of_safe (hnext v)
    exact hfault w _ f hin hw (.move (.refuse hperform))
  | @call request next hnext =>
    refine .call (fun w f hin hw houtcome => ?_) fun a => .of_safe (hnext a)
    have hmove : Runs env transport (w, .call request next)
        (w.remember request, afterCall (transport request).outcome next) := .move .call
    rw [houtcome] at hmove
    exact hfault w _ f hin hw hmove

end Process

/-! ## Nodes -/

section
variable {env : Surroundings} {transport : Transport} {within : World → Prop}
  {accounts : Bool → List String → Fault → Prop} {alone : Bool} {seen : List String}
  {settings : Settings} {run : String → Context → Process}

open Process in
/-- The faults of a task are accounted for if its own are and those of the nodes that it runs, where
nodes that it runs side by side are not alone. -/
theorem Task.told {task : Task} {id : String} {context : Context}
    (hself : Told env transport within accounts alone seen
      (task.process settings (fun _ c => .done c) id context))
    (hrun : ∀ t ∈ task.references.map Reference.target, ∀ seen c,
      Told env transport within accounts alone seen (run t c))
    (hwide : ∀ paths, task = .parallel paths → 2 ≤ (paths.filterMap filled).length →
      ∀ t ∈ paths.filterMap filled, ∀ seen c,
        Told env transport within accounts false seen (run t c)) :
    Told env transport within accounts alone seen (task.process settings run id context) := by
  refine Task.of_parts (P := Told env transport within accounts alone seen) Told.closed
    (fun h => h seen) hself (fun t ht c seen => hrun t ht seen c) fun paths hpaths => ?_
  subst hpaths
  -- A fork of a single branch leaves it alone if the node is; a fork of several does not.
  by_cases hlength : 2 ≤ (paths.filterMap filled).length
  · apply Told.crowd
    · intro b hb
      obtain ⟨t, ht, rfl⟩ := List.mem_map.1 hb
      exact hwide paths rfl hlength t ht seen context
    · exact fun _ => .done
  · have hbranches : ∀ b ∈ (paths.filterMap filled).map fun t => run t context,
        Told env transport within accounts alone seen b := by
      intro b hb
      obtain ⟨t, ht, rfl⟩ := List.mem_map.1 hb
      exact hrun t (mem_parallel ht) seen context
    refine .fork (fun h => ⟨h, ?_⟩) hbranches fun _ => .done
    rw [List.length_map]
    omega

end

namespace Node

/-- The ids of the nodes that a parallel node runs side by side. -/
def paths (n : Node) : List String :=
  match n.behaviour with
  | .known (.parallel paths) _ => paths.filterMap filled
  | _ => []

/-- Whether a node does nothing. -/
def isIdle (n : Node) : Bool :=
  match n.behaviour with
  | .known .trigger _ | .known .output _ => true
  | _ => false

theorem handler_of_isIdle {n : Node} (h : n.isIdle = true) (settings : Settings)
    (context : Context) : n.handler settings context = .done context := by
  unfold isIdle at h
  unfold handler
  split at h
  · rename_i hb
    rw [hb]
    rfl
  · rename_i hb
    rw [hb]
    rfl
  · cases h

end Node

namespace Graph

variable {g : Graph} {settings : Settings} {env : Surroundings} {transport : Transport}
  {within : World → Prop} {alone : Bool}

/-- The node with an id may run while others do: there is a way to it by a path of a parallel node
that has several paths. -/
def Accompanied (g : Graph) (id : String) : Prop :=
  ∃ n ∈ g.nodes, 2 ≤ n.paths.length ∧ ∃ t ∈ n.paths, g.Leads t id

theorem Accompanied.target {n : Node} (h : g.Accompanied n.id) (hn : n ∈ g.nodes) {t : String}
    (ht : t ∈ n.targets) : g.Accompanied t := by
  obtain ⟨m, hm, hlength, first, hfirst, hleads⟩ := h
  exact ⟨m, hm, hlength, first, hfirst, hleads.tail ⟨n, hn, rfl, ht⟩⟩

/-- A fault is what a visited node comes to by itself, in one of the worlds. The node may run while
others do, or else it is the one that was visited last. -/
def Accounts (g : Graph) (settings : Settings) (env : Surroundings) (transport : Transport)
    (within : World → Prop) (alone : Bool) (seen : List String) (f : Fault) : Prop :=
  ∃ n ∈ g.nodes, (∃ w context w', within w ∧ w.HasVisited [n.id] ∧
      Process.Runs env transport (w, n.handler settings context) (w', .fail f)) ∧
    (g.Accompanied n.id ∨ alone = true ∧ seen.head? = some n.id)

theorem Accounts.far {seen seen' : List String} {f : Fault}
    (h : g.Accounts settings env transport within false seen f) :
    g.Accounts settings env transport within alone seen' f := by
  obtain ⟨n, hn, hfails, haccompanied | ⟨halone, -⟩⟩ := h
  · exact ⟨n, hn, hfails, Or.inl haccompanied⟩
  · cases halone

/-- **A node accounts for its own faults**, and so do all nodes to which it may come. -/
theorem told_process (hsound : g.Sound) {id : String} (hid : ∃ n ∈ g.nodes, n.id = id) :
    ∀ {alone : Bool}, (alone = false → g.Accompanied id) → ∀ seen context,
      Process.Told env transport within (g.Accounts settings env transport within) alone seen
        (g.process settings g.depth id context) := by
  refine hsound.induction (P := fun id => ∀ {alone : Bool}, (alone = false → g.Accompanied id) →
    ∀ seen context, Process.Told env transport within (g.Accounts settings env transport within)
      alone seen (g.process settings g.depth id context)) (fun n hn ih alone halone seen context => ?_)
    hid
  have htargets : ∀ t ∈ n.targets, ∀ seen c, Process.Told env transport within
      (g.Accounts settings env transport within) alone seen (g.process settings g.depth t c) :=
    fun t ht => ih t ht fun h => (halone h).target hn ht
  rw [process_depth hsound (hsound.find?_id hn)]
  -- At the start of its handler the node is the one that was visited last.
  have hself : Process.Told env transport within (g.Accounts settings env transport within) alone
      (n.id :: seen) (n.handler settings context) := by
    refine (n.handler_acts settings context).told fun w w' f hin hw hruns => ?_
    refine ⟨n, hn, ⟨w, context, w', hin, ?_, hruns⟩, ?_⟩
    · intro i hi
      rw [List.mem_singleton.1 hi]
      exact hw n.id List.mem_cons_self
    · cases alone with
      | false => exact Or.inl (halone rfl)
      | true => exact Or.inr ⟨rfl, rfl⟩
  apply Process.Told.visit
  apply Process.Told.bind
  · cases hb : n.behaviour with
    | known task next =>
      rw [Node.handler, hb] at hself
      refine Task.told hself (fun t ht => htargets t (Node.mem_targets_of_task hb ht))
        fun paths hpaths hlength t ht => ?_
      subst hpaths
      have hpaths : n.paths = paths.filterMap filled := by rw [Node.paths, hb]
      rw [← hpaths] at hlength
      have hbeside : g.Accompanied t := ⟨n, hn, hlength, t, hpaths ▸ ht, .refl⟩
      exact ih t (Node.mem_targets_of_task hb (Task.mem_parallel ht)) fun _ => hbeside
    | unknown type config => exact .warn .done
  · intro seen c
    apply Process.Told.closed.runFilled
    intro t ht c seen
    exact htargets t (Node.mem_targets_of_next ht) seen c

theorem told_processAll (hsound : g.Sound) {ids : List String}
    (hids : ∀ id ∈ ids, ∃ n ∈ g.nodes, n.id = id) : ∀ seen context,
      Process.Told env transport within (g.Accounts settings env transport within) true seen
        (g.processAll settings g.depth ids context) := by
  induction ids with
  | nil => exact fun _ _ => .done
  | cons id rest ih =>
    intro seen context
    apply Process.Told.bind
    · exact told_process hsound (hids id List.mem_cons_self) (fun h => by cases h) seen context
    · exact ih fun i hi => hids i (List.mem_cons_of_mem id hi)

end Graph

/-! ## Runs -/

namespace Engine

/-- **A run that fails with a defect names the node that failed, unless others may run beside it.**
The fault of a run is what a visited node comes to by itself, in a world between the start and the
end of the run. If no other nodes may run while that one does, then it was visited last, and it is
named in the report if the fault is a defect. -/
theorem failure_of_last {g : Graph} {v : Value} (hload : Graph.load v = .ok g) (e : Engine)
    (initial : Context) {s : Scene} (hclock : s.clock.IsTime) {fault : Fault}
    (hfailed : (e.run g none initial s).result = .failed fault) :
    ∃ cause w, fault = reportedFault (e.run g none initial s).world.trace cause ∧
      Process.Between e.env e.transport
        (firstWorld initial s.world,
          g.processAll e.settings g.depth (g.roots.map Node.id) initial)
        ((e.closing g none initial s).world, .fail cause) w ∧
      ∃ n ∈ g.nodes, w.HasVisited [n.id] ∧
        (∃ context w', Process.Runs e.env e.transport (w, n.handler e.settings context)
          (w', .fail cause)) ∧
        (g.Accompanied n.id ∨
          ((e.run g none initial s).world.trace.back?).map TraceEntry.nodeId = some n.id ∧
            ∀ d, cause = .defect d → fault = .nodeFailed (some n.id) d) := by
  obtain ⟨-, hsound⟩ := Graph.sound_of_load hload
  have hclosing : (e.closing g none initial s).isOver = true ∧ _ := ends_closing hsound hclock
  obtain ⟨-, ⟨context, hfinished, -⟩ | ⟨cause, hending, hruns⟩⟩ := hclosing
  · rw [run_eq, reportOf, hfinished] at hfailed
    cases hfailed
  · have hreported : fault = reportedFault (e.run g none initial s).world.trace cause := by
      rw [run_eq, trace_reportOf]
      rw [run_eq, reportOf, hending] at hfailed
      cases hfailed
      rfl
    -- The steps to the end lead from what the nodes account for to the failure itself.
    have htold := hruns.told (fun h => h.far)
      (Graph.told_processAll hsound (fun id hid => Graph.exists_of_mem_roots hid) _ initial)
    cases htold with
    | fail hfault =>
      obtain ⟨n, hn, ⟨w, context, w', hbetween, hvisited, hfails⟩, hlast⟩ :=
        hfault _ ⟨_, hruns, .refl _⟩ (World.hasVisited_visited _)
      refine ⟨cause, w, hreported, hbetween, n, hn, hvisited, ⟨context, w', hfails⟩, ?_⟩
      rcases hlast with haccompanied | ⟨-, hhead⟩
      · exact Or.inl haccompanied
      · have hback : ((e.run g none initial s).world.trace.back?).map TraceEntry.nodeId =
            some n.id := by
          rw [run_eq, trace_reportOf, ← World.head?_visited]
          exact hhead
        refine Or.inr ⟨hback, ?_⟩
        rintro d rfl
        rw [hreported, reportedFault, hback]

/-- An engine with standard settings, whose calls all fail at once. -/
def broken : Engine where
  env := still.env
  settings := Settings.standard
  transport _ := ⟨Binary64.zero false, .error (.defect (.raised "RuntimeError" "boom"))⟩

end Engine

/-- A parallel node with a single path, to a node that makes a call. -/
def loneNodes : List Value :=
  [.object [("id", .text "fork"), ("type", .text "parallel"),
      ("config", .object [("paths", .list [.object [("nodeId", .text "bad")]])])],
    .object [("id", .text "bad"), ("type", .text "api_call"),
      ("config", .object [("url", .text "http://x/")])]]

/-- The call of these nodes fails, and the report names the node that made it. -/
theorem loneNodes_named : ∃ g, Graph.load (.list loneNodes) = .ok g ∧
    Scene.empty.clock.IsTime ∧ ∃ n ∈ g.nodes, ∃ d,
      (Engine.broken.run g none [] Scene.empty).result = .failed (.nodeFailed (some n.id) d) ∧
      ∃ context w w' cause, Process.Runs Engine.broken.env Engine.broken.transport
        (w, n.handler Settings.standard context) (w', .fail cause) := by
  have hany : (Graph.load (.list loneNodes)).toOption.any (fun g =>
      decide (∀ n ∈ g.nodes, n.paths.length < 2) &&
      decide ((Engine.broken.run g none [] Scene.empty).result.fault? = some (.nodeFailed
        (((Engine.broken.run g none [] Scene.empty).world.trace.back?).map TraceEntry.nodeId)
        (.raised "RuntimeError" "boom")))) = true := by decide +kernel
  obtain ⟨g, hload, hchecked⟩ := Graph.exists_load_of_any hany
  obtain ⟨hnarrow, hfails⟩ := Bool.and_eq_true_iff.1 hchecked
  have hfailed := RunResult.eq_failed (of_decide_eq_true hfails)
  obtain ⟨cause, w, -, -, n, hn, -, ⟨context, w', hcomes⟩, haccompanied | ⟨hback, -⟩⟩ :=
    Engine.failure_of_last hload Engine.broken [] Scene.isTime_empty hfailed
  -- No node has two paths, so none runs beside others.
  · obtain ⟨m, hm, hwide, -⟩ := haccompanied
    exact absurd hwide (Nat.not_le.2 (of_decide_eq_true hnarrow m hm))
  · rw [hback] at hfailed
    exact ⟨g, hload, Scene.isTime_empty, n, hn, _, hfailed, context, w, w', cause, hcomes⟩

/-- A parallel node with a path to a node that makes a call, and one to a node that does nothing. -/
def spoiltNodes : List Value :=
  [.object [("id", .text "fork"), ("type", .text "parallel"),
      ("config", .object [("paths", .list [.object [("nodeId", .text "bad")],
        .object [("nodeId", .text "good")]])])],
    .object [("id", .text "bad"), ("type", .text "api_call"),
      ("config", .object [("url", .text "http://x/")])],
    .object [("id", .text "good"), ("type", .text "output")]]

/-- The call of these nodes fails as well, but the report names the node that does nothing: it is
visited before the failure gets to the end of the run. -/
theorem spoiltNodes_misnamed : ∃ g, Graph.load (.list spoiltNodes) = .ok g ∧
    (Engine.broken.run g none [] Scene.empty).result =
      .failed (.nodeFailed (some "good") (.raised "RuntimeError" "boom")) ∧
    ∀ n ∈ g.nodes, n.id = "good" → ∀ context w w' cause,
      ¬ Process.Runs Engine.broken.env Engine.broken.transport
        (w, n.handler Settings.standard context) (w', .fail cause) := by
  have hany : (Graph.load (.list spoiltNodes)).toOption.any (fun g =>
      decide (∀ n ∈ g.nodes, n.id = "good" → n.isIdle = true) &&
      decide ((Engine.broken.run g none [] Scene.empty).result.fault? =
        some (.nodeFailed (some "good") (.raised "RuntimeError" "boom")))) = true := by
    decide +kernel
  obtain ⟨g, hload, hchecked⟩ := Graph.exists_load_of_any hany
  obtain ⟨hidle, hfails⟩ := Bool.and_eq_true_iff.1 hchecked
  refine ⟨g, hload, RunResult.eq_failed (of_decide_eq_true hfails), ?_⟩
  intro n hn hid context w w' cause hcomes
  -- From a process that is done there is no step to a failure.
  rw [Node.handler_of_isIdle (of_decide_eq_true hidle n hn hid)] at hcomes
  cases hcomes.of_done

end Workgraph
