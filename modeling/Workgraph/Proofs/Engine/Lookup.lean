import Workgraph.Proofs.Engine.Failure
import Workgraph.Proofs.Transform
/-!
# Every id that is run is found

A loaded workflow never comes to an id without a node, to an id that is running already, or to the
bound on the depth: whatever would be done there instead, its runs are the same. So no fiber ends
because a node is missing, unless the transport reports that as its own failure.
-/

namespace Workgraph

/-- The faults to which nodes come: those of values, entities that are missing, and whatever the
transport reports. -/
def Fault.IsOfNodes (transport : Transport) (f : Fault) : Prop :=
  f.isOfValues = true ∨ (∃ entity, f = .entityNotFound entity) ∨
    ∃ request, (transport request).outcome = .error f

theorem liftDefect_fails {α : Type} (result : Except Defect α) :
    FailsByValues (liftDefect result) := by
  cases result with
  | ok a => exact .ok a
  | error d => exact .error rfl

theorem Repository.perform_fault {env : Surroundings} {entity : String} {action : StoreAction}
    {r r' : Repository} {f : Fault} (h : r.perform env entity action = (.error f, r')) :
    f.isOfValues = true ∨ ∃ entity, f = .entityNotFound entity := by
  unfold perform at h
  split at h
  · split at h
    · cases h
    · cases h
      exact Or.inl rfl
  · cases h
    exact Or.inr ⟨entity, rfl⟩

/-- **A node by itself comes to faults of nodes only.** -/
theorem Node.handler_faults (n : Node) (settings : Settings) (env : Surroundings)
    (transport : Transport) (context : Context) (seen : List String) :
    (n.handler settings context).Meets
      (Demand.blame env transport fun _ f => f.IsOfNodes transport) seen := by
  -- What may come up: an operation on values that fails, a refusal of the store, a failed call.
  have hexcept : ∀ {α : Type} {result : Except Fault α} {p : α → Process}, FailsByValues result →
      (∀ a, (p a).Meets (Demand.blame env transport fun _ f => f.IsOfNodes transport) seen) →
      (Process.ofExcept result p).Meets
        (Demand.blame env transport fun _ f => f.IsOfNodes transport) seen := by
    intro α result p hresult hp
    cases result with
    | ok a => exact hp a
    | error f => exact .fail fun _ _ => Or.inl (hresult f rfl)
  have hstore : ∀ {request : StoreRequest} {next : Value → Process},
      (∀ v, (next v).Meets (Demand.blame env transport fun _ f => f.IsOfNodes transport) seen) →
      (Process.store request next).Meets
        (Demand.blame env transport fun _ f => f.IsOfNodes transport) seen := by
    intro request next hnext
    refine .store (fun w f repository _ hperform => ?_) hnext
    rcases Repository.perform_fault hperform with hvalues | hentity
    · exact Or.inl hvalues
    · exact Or.inr (Or.inl hentity)
  have hidle : ∀ id context, (runFilled (fun _ c => .done c) id context).Meets
      (Demand.blame env transport fun _ f => f.IsOfNodes transport) seen := by
    intro id context
    exact Process.Meets.closed.runFilled (fun _ _ _ => .done) context
  unfold Node.handler Behaviour.process
  cases n.behaviour with
  | unknown type config => exact .warn .done
  | known task next =>
    cases task with
    | trigger => exact .done
    | output => exact .done
    | condition conditions elseNode =>
      exact hexcept (liftDefect_fails _) fun target => hidle target context
    | loop arrayField itemVariable loopNode maxIterations =>
      apply hexcept (liftDefect_fails _)
      intro v
      cases v with
      | list items =>
        apply Process.Meets.closed.warnAll
        exact Process.Meets.closed.turns (hidle loopNode) _ 0 _
      | null => exact .done
      | _ => exact .warn .done
    | parallel paths =>
      simp only [Task.process]
      split
      · exact .done
      · refine .fork True.intro ?_ .done
        intro b hb
        obtain ⟨t, -, rfl⟩ := List.mem_map.1 hb
        exact .done
    | apiCall c =>
      apply hexcept (liftDefect_fails _)
      intro request
      refine .call (fun _ f _ houtcome => ?_) fun answer => .done
      exact Or.inr (Or.inr ⟨request, houtcome⟩)
    | databaseQuery q =>
      simp only [Task.process, DatabaseQuery.process]
      split
      · exact hstore fun v => .done
      · exact hstore fun v => .warn .done
    | dataTransform source steps result =>
      refine hexcept ?_ fun v => .done
      exact (liftDefect_fails _).bind fun v => pipeline_fails steps context v
    | filter source conditions result => exact hexcept (liftDefect_fails _) fun v => .done
    | delay duration unit =>
      simp only [Task.process]
      generalize Binary64.less (Binary64.zero false) (delaySeconds duration unit) = waits
      cases waits with
      | true => exact .sleep .done
      | false => exact .done

namespace Engine

variable {g : Graph}

/-- A fiber of a run that has failed has failed with a fault of nodes. -/
theorem isOfNodes_of_reached {e : Engine} {deadline : Option Binary64} {initial : Context}
    {s : Scene} {x : Instant} {i : Nat} {f : Fault} (hsound : g.Sound)
    (hx : Instant.Reached e.env e.transport (e.opening g deadline initial s) x)
    (hi : x.schedule.state? i = some (.ended (.failed f))) : f.IsOfNodes e.transport := by
  have hmeets : (g.processAll e.settings g.depth (g.roots.map Node.id) initial).Meets
      (Demand.blame e.env e.transport fun _ f => f.IsOfNodes e.transport) [] :=
    Graph.processAll_meets_blame hsound
      (fun n _ context seen _ => n.handler_faults e.settings e.env e.transport context seen)
      (fun id hid => Graph.exists_of_mem_roots hid) initial
  have hblamed := Instant.blamed_reached orderly_opening (holds_opening hmeets) hx
  obtain ⟨w, -, hfault⟩ := hblamed i _ hi f rfl
  exact hfault

/-- A run of a loaded workflow without a time limit completes, or it fails with a fault of nodes, as
the engine reports it. -/
theorem run_completes_or_fails {v : Value} (hload : Graph.load v = .ok g) (e : Engine)
    (initial : Context) {s : Scene} (hclock : s.clock.IsTime) :
    (∃ context, (e.run g none initial s).result = .completed context) ∨
      ∃ cause, cause.IsOfNodes e.transport ∧ (e.run g none initial s).result =
        .failed (reportedFault (e.run g none initial s).world.trace cause) := by
  obtain ⟨-, hsound⟩ := Graph.sound_of_load hload
  have hclosing : (e.closing g none initial s).isOver = true ∧ _ := ends_closing hsound hclock
  obtain ⟨hover, ⟨context, hfinished, -⟩ | ⟨cause, hfailed, -⟩⟩ := hclosing
  · refine Or.inl ⟨context, ?_⟩
    rw [run_eq, reportOf, hfinished]
  · have hlast := reached_closing e g none initial s
    have hstate := state?_main_of_isOver hover
    rw [hfailed] at hstate
    refine Or.inr ⟨cause, isOfNodes_of_reached hsound hlast hstate, ?_⟩
    rw [run_eq, trace_reportOf, reportOf, hfailed]

/-- **No run of a loaded workflow comes to a missing node.** The process of a node is that of the
recursion without a bound on the depth, which is refused to run an id without a node, an id that is
running already, and anything inside a chain that is as long as the list of nodes: whatever it is
made to do there, the process is the same. So is the process of a whole run. Every fiber of a run,
whatever its time limit, that has failed has failed otherwise than for a missing node, unless the
transport says so; and a run without a time limit ends. -/
theorem no_node_is_missing {v : Value} (hload : Graph.load v = .ok g) (e : Engine)
    (initial : Context) (s : Scene) :
    (∀ refuse settings depth, g.nodes.length ≤ depth → ∀ id, (∃ n ∈ g.nodes, n.id = id) →
      ∀ context, g.process settings depth id context = g.guarded settings refuse [] id context) ∧
    (∀ refuse, g.processAll e.settings g.depth (g.roots.map Node.id) initial =
      g.guardedAll e.settings refuse (g.roots.map Node.id) initial) ∧
    (∀ deadline x, Instant.Reached e.env e.transport (e.opening g deadline initial s) x →
      ∀ i id source, x.schedule.state? i = some (.ended (.failed (.nodeNotFound id source))) →
        ∃ request, (e.transport request).outcome = .error (.nodeNotFound id source)) ∧
    (s.clock.IsTime → (e.closing g none initial s).isOver = true) := by
  obtain ⟨-, hsound⟩ := Graph.sound_of_load hload
  have hguarded : ∀ refuse settings depth, g.nodes.length ≤ depth → ∀ id,
      (∃ n ∈ g.nodes, n.id = id) → ∀ context,
        g.process settings depth id context = g.guarded settings refuse [] id context := by
    intro refuse settings depth hdepth id hid context
    exact Graph.process_eq_guarded_of_chain hsound refuse depth [] id context
      (Graph.Chain.nil hid) hdepth
  refine ⟨hguarded, fun refuse => ?_, fun deadline x hx i id source hi => ?_, fun hclock => ?_⟩
  · have hall : ∀ ids : List String, (∀ id ∈ ids, ∃ n ∈ g.nodes, n.id = id) → ∀ context,
        g.processAll e.settings g.depth ids context =
          g.guardedAll e.settings refuse ids context := by
      -- The roots are run one after another, each of them as without a bound.
      intro ids
      induction ids with
      | nil => exact fun _ _ => rfl
      | cons id rest ih =>
        intro hids context
        have hrest := ih fun i hi => hids i (List.mem_cons_of_mem id hi)
        rw [Graph.processAll, Graph.guardedAll, hguarded refuse e.settings g.depth
          g.length_le_depth id (hids id List.mem_cons_self) context, funext hrest]
    exact hall _ (fun id hid => Graph.exists_of_mem_roots hid) initial
  · rcases isOfNodes_of_reached hsound hx hi with hvalues | ⟨entity, hentity⟩ | htransport
    · cases hvalues
    · cases hentity
    · exact htransport
  · exact (ends_closing hsound hclock).1

end Engine

/-- The nodes of a fork are run without a bound on the depth: a refusal would be a failure. -/
theorem forkNodes_unbounded : ∃ g, Graph.load (.list forkNodes) = .ok g ∧
    Scene.empty.clock.IsTime ∧
    g.processAll Settings.standard g.depth (g.roots.map Node.id) [] =
      g.guardedAll Settings.standard (fun _ id _ => .fail (.nodeNotFound id none))
        (g.roots.map Node.id) [] ∧
    (Engine.still.closing g none [] Scene.empty).isOver = true := by
  obtain ⟨g, hload⟩ := exists_load_forkNodes
  have hclock := Scene.isTime_empty
  obtain ⟨-, hall, -, hends⟩ := Engine.no_node_is_missing hload Engine.still [] Scene.empty
  exact ⟨g, hload, hclock, hall _, hends hclock⟩

end Workgraph
