import Workgraph.Engine.Process
/-!
# The world of a run

What the processes of a run share: the store, the trace, and what they have said and asked. A
process is advanced until it ends or has to wait; only then can another one do something.
-/

namespace Workgraph

/-- A visit of a node. -/
structure TraceEntry where
  nodeId : String
  type : String
  timestamp : String
deriving DecidableEq, Repr

/-- How grave a notice is. -/
inductive Gravity where
  | warning
  | error
deriving DecidableEq, Repr

/-- A notice to whoever operates the engine. -/
structure Notice where
  gravity : Gravity
  words : String
deriving DecidableEq, Repr

/-- What the processes of a run share. -/
structure World where
  repository : Repository
  trace : Array TraceEntry
  notices : Array Notice
  calls : Array CallRequest

namespace World

/-- Enters a visit into the trace. -/
def enter (env : Surroundings) (id type : String) (w : World) : World :=
  { w with trace := w.trace.push ⟨id, type, env.stamp⟩ }

/-- Gives notice. -/
def notify (gravity : Gravity) (words : String) (w : World) : World :=
  { w with notices := w.notices.push ⟨gravity, words⟩ }

/-- Remembers a call. -/
def remember (request : CallRequest) (w : World) : World :=
  { w with calls := w.calls.push request }

end World

/-- How a process ends. -/
inductive Ending where
  | finished (context : Context)
  | failed (fault : Fault)
  /-- It was told to stop. -/
  | cancelled

/-- An ending, unless the process was told to stop. -/
def Ending.unless (cancelled : Bool) (ending : Ending) : Ending :=
  if cancelled then .cancelled else ending

/-- Where a process comes to a halt. -/
inductive Pause where
  | ended (ending : Ending)
  | asleep (seconds : Binary64) (next : Unit → Process)
  | forked (branches : List Process) (next : Unit → Process)

/-- Whether a number of seconds is worth waiting for. -/
def isWait (seconds : Binary64) : Bool := Binary64.less (Binary64.zero false) seconds

namespace Process

/-- The process after a call. -/
def afterCall (outcome : Except Fault CallAnswer) (next : CallAnswer → Process) : Process :=
  .ofExcept outcome next

/-- Advances a process until it comes to a halt. -/
def advance (env : Surroundings) (transport : Transport) : Process → World → World × Pause
  | done context, w => (w, .ended (.finished context))
  | fail fault, w => (w, .ended (.failed fault))
  | visit id type next, w => (next ()).advance env transport (w.enter env id type)
  | warn words next, w => (next ()).advance env transport (w.notify .warning words)
  | store request next, w =>
    match w.repository.perform env request.entity request.action with
    | (.ok v, repository) => (next v).advance env transport { w with repository }
    | (.error f, repository) => ({ w with repository }, .ended (.failed f))
  | call request next, w =>
    let reply := transport request
    let w := w.remember request
    if isWait reply.delay then (w, .asleep reply.delay fun _ => afterCall reply.outcome next)
    else match reply.outcome with
      | .ok answer => (next answer).advance env transport w
      | .error f => (w, .ended (.failed f))
  | sleep seconds next, w => (w, .asleep seconds next)
  | fork branches next, w => (w, .forked branches next)

end Process

end Workgraph
