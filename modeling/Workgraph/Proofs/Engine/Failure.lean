import Workgraph.Proofs.Engine.Acts
import Workgraph.Proofs.Engine.Blame
import Workgraph.Proofs.Engine.Budget
import Workgraph.Proofs.Engine.Endings
/-!
# How runs fail

A node by itself fails with the first thing that it does, or not at all. So the fault with which a
run fails is the failure of a node that has been visited, in the world of that moment, and the report
on the run carries the whole trace.
-/

namespace Workgraph

namespace Process

section
variable {env : Surroundings} {transport : Transport} {B : World → Fault → Prop}
  {S : StoreRequest → Prop}

/-- The faults that come up in such a process are those that come up at its start. -/
theorem Acts.meets_blame {seen : List String} {p : Process} (h : p.Acts S)
    (hB : ∀ w w' f, w.HasVisited seen → Runs env transport (w, p) (w', .fail f) → B w f) :
    p.Meets (Demand.blame env transport B) seen := by
  cases h with
  | safe hsafe => exact hsafe.of_safe fun _ _ => True.intro
  | fail =>
    apply Meets.fail
    intro w hw
    exact hB w w _ hw (.refl _)
  | store _ hnext =>
    apply Meets.store
    · intro w f repository hw hperform
      exact hB w _ f hw (.move (.refuse hperform))
    · intro v
      exact (hnext v).of_safe fun _ _ => True.intro
  | @call request next hnext =>
    apply Meets.call
    · intro w f hw houtcome
      have hmove : Runs env transport (w, .call request next)
          (w.remember request, afterCall (transport request).outcome next) := .move .call
      rw [houtcome] at hmove
      exact hB w _ f hw hmove
    · intro a
      exact (hnext a).of_safe fun _ _ => True.intro

end

end Process

namespace Graph

variable {g : Graph} {settings : Settings} {env : Surroundings} {transport : Transport}

/-- A fault is the failure, in a world, of a node that has been visited there: what the node does by
itself comes to it. -/
def Blames (g : Graph) (settings : Settings) (env : Surroundings) (transport : Transport)
    (w : World) (f : Fault) : Prop :=
  ∃ n ∈ g.nodes, w.HasVisited [n.id] ∧ ∃ context w',
    Process.Runs env transport (w, n.handler settings context) (w', .fail f)

theorem exists_of_mem_roots {id : String} (h : id ∈ g.roots.map Node.id) :
    ∃ n ∈ g.nodes, n.id = id := by
  obtain ⟨n, hn, rfl⟩ := List.mem_map.1 h
  exact ⟨n, mem_of_mem_roots hn, rfl⟩

/-- Whatever holds of the failures of visited nodes holds of all faults of a workflow. -/
theorem processAll_meets_blame (hsound : g.Sound) {B : World → Fault → Prop}
    (hB : ∀ n ∈ g.nodes, ∀ context seen, n.id ∈ seen →
      (n.handler settings context).Meets (Demand.blame env transport B) seen) {ids : List String}
    (hids : ∀ id ∈ ids, ∃ n ∈ g.nodes, n.id = id) (context : Context) :
    (g.processAll settings g.depth ids context).Meets (Demand.blame env transport B) [] := by
  refine meets_processAll (fun id hid seen context => ?_) [] context
  refine meets_process hsound (hids id hid) ?_ (fun _ _ _ _ _ _ _ => True.intro) seen context
  intro n hn _ seen context hseen
  exact hB n hn context seen hseen

theorem processAll_isBlamed (hsound : g.Sound) {ids : List String}
    (hids : ∀ id ∈ ids, ∃ n ∈ g.nodes, n.id = id) (context : Context) :
    (g.processAll settings g.depth ids context).Meets
      (Demand.blame env transport (g.Blames settings env transport)) [] := by
  refine processAll_meets_blame hsound (fun n hn context seen hseen => ?_) hids context
  refine (n.handler_acts settings context).meets_blame fun w w' f hw hruns => ?_
  have hvisited : w.HasVisited [n.id] := by
    intro i hi
    rw [List.mem_singleton.1 hi]
    exact hw n.id hseen
  exact ⟨n, hn, hvisited, context, w', hruns⟩

end Graph

/-! ## Runs of workflows -/

namespace Engine

/-- The world in which a run of a workflow starts: with a new trace, and a warning if need be. -/
def firstWorld (initial : Context) (w : World) : World :=
  (reservedWarning initial).foldl (fun w words => w.notify .warning words) { w with trace := #[] }

/-- The schedule at the start of a run of a workflow. -/
def opening (e : Engine) (g : Graph) (deadline : Option Binary64) (initial : Context) (s : Scene) :
    Schedule :=
  let start := Schedule.start s.clock (firstWorld initial s.world)
    (g.processAll e.settings g.depth (g.roots.map Node.id) initial)
  match deadline with
  | none => start
  | some seconds => start.setTimer seconds .expire

/-- The schedule at the end of a run of a workflow. -/
def closing (e : Engine) (g : Graph) (deadline : Option Binary64) (initial : Context) (s : Scene) :
    Schedule :=
  (e.opening g deadline initial s).run e.env e.transport
    (g.turnBudget e.settings (g.roots.map Node.id))

/-- The report on a run that has come to a schedule. -/
def reportOf (s : Schedule) : RunReport :=
  match s.ending with
  | .finished context => ⟨.completed context, s.world, s.clock⟩
  | .cancelled => ⟨.timedOut, s.world, s.clock⟩
  | .failed fault =>
    ⟨.failed (reportedFault s.world.trace fault),
      s.world.notify .error (failureWords s.world.trace (reportedFault s.world.trace fault)),
      s.clock⟩

variable {e : Engine} {g : Graph} {deadline : Option Binary64} {initial : Context} {s : Scene}

/-- A run of a workflow is a report on its last schedule. -/
theorem run_eq (e : Engine) (g : Graph) (deadline : Option Binary64) (initial : Context)
    (s : Scene) : e.run g deadline initial s = reportOf (e.closing g deadline initial s) := rfl

/-- A run comes to its last schedule. -/
theorem reached_closing (e : Engine) (g : Graph) (deadline : Option Binary64) (initial : Context)
    (s : Scene) : Instant.Reached e.env e.transport (e.opening g deadline initial s)
      (Instant.before (e.closing g deadline initial s)) :=
  Instant.reached_run (g.turnBudget e.settings (g.roots.map Node.id)) _

theorem orderly_opening : (Instant.before (e.opening g deadline initial s)).Orderly := by
  unfold opening
  cases deadline with
  | none => exact Instant.orderly_start _ _ _
  | some seconds => exact (Instant.orderly_start _ _ _).limited seconds

/-- A run starts with its process, and is not yet told to stop. -/
theorem stands_opening (e : Engine) (g : Graph) (deadline : Option Binary64) (initial : Context)
    (s : Scene) : (e.opening g deadline initial s).Stands true Schedule.main
      (g.processAll e.settings g.depth (g.roots.map Node.id) initial) := by
  have hstart := Instant.stands_start s.clock (firstWorld initial s.world)
    (g.processAll e.settings g.depth (g.roots.map Node.id) initial) true
  unfold opening
  cases deadline with
  | none => exact hstart
  | some seconds =>
    exact hstart.frame (Instant.orderly_start _ _ _).family.linked fun _ _ _ => ⟨rfl, rfl⟩

theorem world_opening (e : Engine) (g : Graph) (deadline : Option Binary64) (initial : Context)
    (s : Scene) : (e.opening g deadline initial s).world = firstWorld initial s.world := by
  unfold opening
  cases deadline <;> rfl

/-- **Whatever a run of a workflow comes to comes of its process.** -/
theorem runs_of_reached {x : Instant}
    (hx : Instant.Reached e.env e.transport (e.opening g deadline initial s) x) :
    ∃ q, x.schedule.Stands false Schedule.main q ∧ Process.Runs e.env e.transport
      (firstWorld initial s.world,
        g.processAll e.settings g.depth (g.roots.map Node.id) initial) (x.schedule.world, q) := by
  rw [← world_opening e g deadline initial s]
  exact Instant.runs_reached orderly_opening (stands_opening e g deadline initial s) hx

theorem ending_of_completed {last : Schedule} {context : Context}
    (h : (reportOf last).result = .completed context) : last.ending = .finished context := by
  unfold reportOf at h
  cases hending : last.ending with
  | finished final =>
    rw [hending] at h
    cases h
    rfl
  | failed f =>
    rw [hending] at h
    cases h
  | cancelled =>
    rw [hending] at h
    cases h

theorem world_reportOf_of_finished {last : Schedule} {context : Context}
    (h : last.ending = .finished context) : (reportOf last).world = last.world := by
  rw [reportOf, h]

theorem state?_main_of_finished {last : Schedule} {context : Context}
    (h : last.ending = .finished context) :
    last.state? Schedule.main = some (.ended (.finished context)) := by
  unfold Schedule.ending at h
  split at h
  · rename_i ending hstate
    rw [hstate, h]
  · cases h

/-- The process of a run that has completed is done. -/
theorem runs_of_completed {context : Context}
    (h : (e.run g deadline initial s).result = .completed context) :
    Process.Runs e.env e.transport
      (firstWorld initial s.world,
        g.processAll e.settings g.depth (g.roots.map Node.id) initial)
      ((e.run g deadline initial s).world, .done context) := by
  obtain ⟨q, hq, hruns⟩ := runs_of_reached (reached_closing e g deadline initial s)
  rw [Instant.schedule_before] at hq hruns
  rw [run_eq] at h
  have hending := ending_of_completed h
  rw [run_eq, world_reportOf_of_finished hending]
  cases hq.of_ended (state?_main_of_finished hending) with
  | finished => exact hruns

theorem isReported_reportedFault (trace : Array TraceEntry) (f : Fault) :
    (reportedFault trace f).isReported = true := by
  cases f <;> rfl

/-- The trace of a report is that of the last schedule. -/
theorem trace_reportOf (s : Schedule) : (reportOf s).world.trace = s.world.trace := by
  unfold reportOf
  cases s.ending <;> rfl

/-- A run without a time limit ends, and not as cancelled. -/
theorem ends_closing (hsound : g.Sound) (hclock : s.clock.IsTime) :
    (e.closing g none initial s).isOver = true ∧
      ((∃ context, (e.closing g none initial s).ending = .finished context ∧
          Process.Runs e.env e.transport
            (firstWorld initial s.world,
              g.processAll e.settings g.depth (g.roots.map Node.id) initial)
            ((e.closing g none initial s).world, .done context)) ∨
        ∃ f, (e.closing g none initial s).ending = .failed f ∧
          Process.Runs e.env e.transport
            (firstWorld initial s.world,
              g.processAll e.settings g.depth (g.roots.map Node.id) initial)
            ((e.closing g none initial s).world, .fail f)) := by
  have hids : ∀ id ∈ g.roots.map Node.id, ∃ n ∈ g.nodes, n.id = id :=
    fun id hid => Graph.exists_of_mem_roots hid
  obtain ⟨cost, hcosts, hbudget⟩ : ∃ cost,
      (g.processAll e.settings g.depth (g.roots.map Node.id) initial).Costs cost ∧
        cost + 4 ≤ g.turnBudget e.settings (g.roots.map Node.id) :=
    Graph.costs_processAll hsound hids initial
  exact Instant.ends_run hclock hcosts hbudget rfl

/-- At the start of a run only its fiber is there, and no fault. -/
theorem holds_opening {B : World → Fault → Prop}
    (h : (g.processAll e.settings g.depth (g.roots.map Node.id) initial).Meets
      (Demand.blame e.env e.transport B) []) :
    (e.opening g deadline initial s).Holds
      (Process.IsBlamed e.env e.transport B (e.opening g deadline initial s).world)
      fun _ => False := by
  have hopening : ∀ i st, (e.opening g deadline initial s).state? i = some st →
      st = .queued (.go [] fun _ =>
        g.processAll e.settings g.depth (g.roots.map Node.id) initial) := by
    unfold opening
    cases deadline with
    | none => exact fun i st hst => (Instant.state?_start hst).2
    | some seconds =>
      intro i st hst
      simp only [Schedule.state?_setTimer] at hst
      exact (Instant.state?_start hst).2
  intro i st hst
  rw [hopening i st hst]
  exact ⟨[], by simp [World.HasVisited], h⟩

/-- **The fault with which a run fails** is the failure of a visited node in a world of the run. -/
theorem blames_closing (hsound : g.Sound) {f : Fault}
    (hf : (e.closing g deadline initial s).state? Schedule.main = some (.ended (.failed f))) :
    ∃ w, Instant.Sees e.env e.transport (e.opening g deadline initial s) w ∧
      g.Blames e.settings e.env e.transport w f := by
  have hmeets : (g.processAll e.settings g.depth (g.roots.map Node.id) initial).Meets
      (Demand.blame e.env e.transport (g.Blames e.settings e.env e.transport)) [] :=
    Graph.processAll_isBlamed hsound (fun id hid => Graph.exists_of_mem_roots hid) initial
  have hblamed := Instant.blamed_reached orderly_opening (holds_opening hmeets)
    (reached_closing e g deadline initial s)
  rw [Instant.schedule_before] at hblamed
  exact hblamed _ _ hf f rfl

/-- A schedule at which the run has ended in a certain way. -/
theorem state?_main_of_isOver {s : Schedule} (hover : s.isOver = true) :
    s.state? Schedule.main = some (.ended s.ending) := by
  obtain ⟨e, he⟩ := Schedule.hasEnded_iff.1 hover
  simp only [Schedule.ending, he]

/-- An engine with standard settings, whose calls are answered at once. -/
def still : Engine where
  env := ⟨⟨0, none⟩, fun n => digitsText n⟩
  settings := Settings.standard
  transport _ := ⟨Binary64.zero false, .ok ⟨200, .null⟩⟩

end Engine

namespace RunResult

variable {r : RunResult}

/-- The variables with which a run has completed, if it has. -/
def final? : RunResult → Option Context
  | completed context => some context
  | _ => none

/-- The fault with which a run has failed, if it has. -/
def fault? : RunResult → Option Fault
  | failed f => some f
  | _ => none

theorem eq_completed {context : Context} (h : r.final? = some context) : r = .completed context := by
  cases r with
  | completed other =>
    cases h
    rfl
  | failed f => cases h
  | timedOut => cases h

theorem eq_failed {f : Fault} (h : r.fault? = some f) : r = .failed f := by
  cases r with
  | completed context => cases h
  | failed other =>
    cases h
    rfl
  | timedOut => cases h

end RunResult

/-- A scene with nothing in it, at the beginning of time. -/
def Scene.empty : Scene := ⟨⟨⟨.memory Memory.empty, 0⟩, #[], #[], #[]⟩, Binary64.zero false⟩

/-- A scene with two entities and no records. -/
def Scene.stocked : Scene :=
  ⟨⟨⟨.memory ⟨[("orders", []), ("users", [])]⟩, 0⟩, #[], #[], #[]⟩, Binary64.zero false⟩

theorem Scene.isTime_empty : Scene.empty.clock.IsTime := by
  dsimp only [Scene.empty]
  exact Binary64.isTime_zero false

/-- A parallel node with a branch that fails, since its entity is missing, and one that sleeps. -/
def forkNodes : List Value :=
  [.object [("id", .text "p"), ("type", .text "parallel"),
      ("config", .object [("paths", .list [.object [("nodeId", .text "a")],
        .object [("nodeId", .text "b")]])])],
    .object [("id", .text "a"), ("type", .text "database_query"),
      ("config", .object [("entityName", .text "orders")])],
    .object [("id", .text "b"), ("type", .text "delay"),
      ("config", .object [("duration", .int 5)])]]

theorem exists_load_forkNodes : ∃ g, Graph.load (.list forkNodes) = .ok g := by
  have hany : (Graph.load (.list forkNodes)).toOption.any (fun _ => true) = true := by
    decide +kernel
  obtain ⟨g, hload, -⟩ := Graph.exists_load_of_any hany
  exact ⟨g, hload⟩

end Workgraph
