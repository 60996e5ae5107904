import Workgraph.Engine.Bound
import Workgraph.Engine.Schedule
import Workgraph.Graph.Check
import Workgraph.History.History
/-!
# Runs

Running a workflow: its nodes that run at top level, one after another. A fault that the engine does
not report itself is wrapped together with the node that was visited last. `Engine.execute` also
loads the workflow and records the run in the history.
-/

namespace Workgraph

/-- A workflow engine: its surroundings, its settings, and what answers its calls. -/
structure Engine where
  env : Surroundings
  settings : Settings
  transport : Transport

/-- What comes of a run. -/
inductive RunResult where
  | completed (context : Context)
  | failed (fault : Fault)
  /-- The time for the run was over. -/
  | timedOut

/-- A run that has ended: what came of it, the world it left, and the time. -/
structure RunReport where
  result : RunResult
  world : World
  clock : Binary64

/-- A moment of the engine: the world it has worked on so far, and the time. -/
structure Scene where
  world : World
  clock : Binary64

namespace Engine

/-- Runs a process. If there is a deadline, the process is cancelled after so many seconds. -/
def perform (e : Engine) (budget : Nat) (deadline : Option Binary64) (p : Process) (s : Scene) :
    Schedule :=
  let start := Schedule.start s.clock s.world p
  let timed := match deadline with
    | none => start
    | some seconds => start.setTimer seconds .expire
  Schedule.run e.env e.transport budget timed

/-- Runs a single node. -/
def executeNode (e : Engine) (g : Graph) (id : String) (context : Context) (s : Scene) :
    Ending × Scene :=
  let schedule := e.perform (g.turnBudget e.settings [id]) none
    (g.process e.settings g.depth id context) s
  (schedule.ending, ⟨schedule.world, schedule.clock⟩)

/-- The warning about variables that nodes set for themselves. -/
def reservedWarning (context : Context) : List String :=
  let collisions := reservedKeys.filter fun k => context.has k
  if collisions.isEmpty then []
  else ["Initial context sets engine-reserved keys [" ++
    ", ".intercalate (collisions.map Text.quoted) ++ "]; nodes may overwrite them"]

/-- A fault as the engine reports it: a defect becomes the failure of the node visited last. -/
def reportedFault (trace : Array TraceEntry) : Fault → Fault
  | .defect cause => .nodeFailed ((trace.back?).map TraceEntry.nodeId) cause
  | fault => fault

/-- The line about a run that has failed. -/
def failureWords (trace : Array TraceEntry) (fault : Fault) : String :=
  "Workflow run failed after " ++ digitsText trace.size ++ " steps: " ++ fault.message

/-- Runs a graph. The trace starts anew. -/
def run (e : Engine) (g : Graph) (deadline : Option Binary64) (initial : Context) (s : Scene) :
    RunReport :=
  let world := (reservedWarning initial).foldl (fun w words => w.notify .warning words)
    { s.world with trace := #[] }
  let ids := g.roots.map Node.id
  let schedule := e.perform (g.turnBudget e.settings ids) deadline
    (g.processAll e.settings g.depth ids initial) ⟨world, s.clock⟩
  let world := schedule.world
  match schedule.ending with
  | .finished context => ⟨.completed context, world, schedule.clock⟩
  | .cancelled => ⟨.timedOut, world, schedule.clock⟩
  | .failed fault =>
    let fault := reportedFault world.trace fault
    ⟨.failed fault, world.notify .error (failureWords world.trace fault), schedule.clock⟩

/-- A trace as it is recorded. -/
def traceValues (trace : Array TraceEntry) : List (Entries Value) :=
  trace.toList.map fun t =>
    [("nodeId", .text t.nodeId), ("type", .text t.type), ("timestamp", .text t.timestamp)]

/-- The record of a run. -/
def recordOf (e : Engine) (id : String) (nodeCount : Nat) (initial : Context)
    (trace : Array TraceEntry) (final : Option Context) (fault : Option Fault) : RunRecord where
  id := id
  status := if fault.isSome then .failed else .completed
  startedAt := e.env.now
  completedAt := e.env.now
  duration := Binary64.zero false
  nodeCount := nodeCount
  initialContext := initial
  finalContext := final
  executionLog := traceValues trace
  error := fault.map Fault.message
  errorType := fault.map Fault.name

end Engine

/-- What the runs of an engine leave behind: the scene, and the history if one is kept. -/
structure Session where
  scene : Scene
  history : Option History

/-- What comes of a workflow: its result, its trace, and the id of its record. -/
structure WorkflowOutcome where
  result : RunResult
  trace : Array TraceEntry
  runId : Option String

namespace Engine

/-- Records a run, if a history is kept. The record takes an id from the supply, even if the history
refuses it. -/
def record (e : Engine) (g : Graph) (initial : Context) (final : Option Context)
    (fault : Option Fault) (s : Session) : Except Defect (Option String) × Session :=
  match s.history with
  | none => (.ok none, s)
  | some history =>
    let repository := s.scene.world.repository
    let n := repository.drawn + 1
    let id := e.env.runId n
    let run := e.recordOf id g.nodes.length initial s.scene.world.trace final fault
    let world := { s.scene.world with repository := { repository with drawn := n } }
    let after := { s with scene := { s.scene with world } }
    match history.insert run with
    | .ok history => (.ok (some id), { after with history := some history })
    | .error d => (.error d, after)

/-- Loads a workflow, runs it, and records the run. A run that cannot be recorded fails with the
defect of the history, whatever came of it. -/
def loadAndRun (e : Engine) (nodes : Value) (deadline : Option Binary64) (initial : Context)
    (s : Session) : WorkflowOutcome × Session :=
  match Graph.load nodes with
  | .error fault =>
    (⟨.failed fault, #[], none⟩, s)
  | .ok g =>
    let world := g.warnings.foldl (fun w words => w.notify .warning words) s.scene.world
    let report := e.run g deadline initial { s.scene with world }
    let after := { s with scene := ⟨report.world, report.clock⟩ }
    let trace := report.world.trace
    match report.result with
    | .timedOut => (⟨.timedOut, trace, none⟩, after)
    | .failed fault =>
      match e.record g initial none (some fault) after with
      | (.ok _, after) => (⟨.failed fault, trace, none⟩, after)
      | (.error d, after) => (⟨.failed (.defect d), #[], none⟩, after)
    | .completed context =>
      match e.record g initial (some context) none after with
      | (.ok id, after) => (⟨.completed context, trace, id⟩, after)
      | (.error d, after) => (⟨.failed (.defect d), #[], none⟩, after)

/-- Loads a workflow, runs it, and records the run. A workflow that cannot be loaded leaves no
trace and no record, and neither does one that is given no time at all. -/
def execute (e : Engine) (nodes : Value) (deadline : Option Binary64) (initial : Context)
    (s : Session) : WorkflowOutcome × Session :=
  if deadline.any fun seconds => !isWait seconds then (⟨.timedOut, #[], none⟩, s)
  else e.loadAndRun nodes deadline initial s

end Engine

end Workgraph
