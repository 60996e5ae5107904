import Workgraph.Engine.World
/-!
# Schedules

How processes run side by side on one thread. Each process has a fiber. A fiber runs until it comes
to a halt, and what happens next stands in a queue of events, first come first served. A sleeping
fiber is woken when its time has come: first its timer rings, then the fiber is resumed. A fiber
that has forked waits for its children. Each child reports its end. When the last one has finished
the fiber goes on; when the first one fails the fiber cancels all of them, waits until every one has
ended, and then fails itself. When the queue is empty the clock moves on to the next timer.

A fiber that is cancelled while it sleeps is resumed at once and ends. One that waits for its
children passes the cancellation on to them. One that is about to be resumed ends instead, or clears
its children away first.
-/

namespace Workgraph

/-- What a fiber does when it is resumed. -/
inductive Resumption where
  /-- It goes on, after its children, if it had any, have finished. -/
  | go (children : List Nat) (next : Unit → Process)
  /-- It clears its children away, and ends. -/
  | clear (children : List Nat) (ending : Ending)
  /-- It ends. -/
  | stop (ending : Ending)

/-- What a fiber is doing. -/
inductive FiberState where
  /-- An event that resumes it is in the queue. -/
  | queued (resumption : Resumption)
  | asleep (next : Unit → Process)
  /-- It waits until its children have finished; so many have not yet reported. -/
  | joining (children : List Nat) (left : Nat) (next : Unit → Process)
  /-- It waits until its children have ended; so many have not yet reported. Then it ends, and as
  cancelled if it was told to stop meanwhile. -/
  | clearing (children : List Nat) (left : Nat) (ending : Ending) (cancelled : Bool)
  | ended (ending : Ending)

/-- A process that runs, and the fiber that started it. -/
structure Fiber where
  parent : Option Nat
  state : FiberState
  /-- Whether it has to stop when it is resumed. -/
  cancelled : Bool

/-- Something that is to happen. -/
inductive Event where
  /-- A fiber is resumed. -/
  | resume (fiber : Nat)
  /-- The time of a sleeping fiber has come. -/
  | ring (fiber : Nat)
  /-- A child reports its end to its parent: to the wait for its children to finish, or to the wait
  for them to be cleared away. -/
  | report (child : Nat) (clearing : Bool)
  /-- The time for the whole run is over. -/
  | expire
  /-- The run is cancelled. -/
  | cutOff
deriving DecidableEq, Repr

/-- An event that happens at a time. -/
structure Timer where
  due : Binary64
  event : Event

/-- The fibers, what is to happen next, and the world. The first fiber is that of the run. -/
structure Schedule where
  fibers : Array Fiber
  queue : Array Event
  /-- In order of time; timers set first come first. -/
  timers : List Timer
  clock : Binary64
  world : World

namespace Schedule

/-- The fiber of the run. -/
def main : Nat := 0

/-- Puts an event at the end of the queue. -/
def push (event : Event) (s : Schedule) : Schedule := { s with queue := s.queue.push event }

/-- Changes what a fiber is doing. -/
def setState (i : Nat) (state : FiberState) (s : Schedule) : Schedule :=
  { s with fibers := s.fibers.modify i fun f => { f with state } }

/-- Changes whether a fiber has to stop. -/
def setCancelled (i : Nat) (cancelled : Bool) (s : Schedule) : Schedule :=
  { s with fibers := s.fibers.modify i fun f => { f with cancelled } }

/-- What a fiber is doing. -/
def state? (s : Schedule) (i : Nat) : Option FiberState := (s.fibers[i]?).map Fiber.state

/-- The fiber resumes in a certain way as soon as it is its turn. -/
def enqueue (i : Nat) (resumption : Resumption) (s : Schedule) : Schedule :=
  (s.setState i (.queued resumption)).push (.resume i)

/-- A timer among others, after those that are not due later. -/
def insertTimer (t : Timer) : List Timer → List Timer
  | [] => [t]
  | u :: rest => if Binary64.less t.due u.due then t :: u :: rest else u :: insertTimer t rest

/-- Sets a timer that many seconds from now. -/
def setTimer (seconds : Binary64) (event : Event) (s : Schedule) : Schedule :=
  { s with timers := insertTimer ⟨s.clock + seconds, event⟩ s.timers }

/-- Removes the timer of an event. -/
def dropTimer (event : Event) (s : Schedule) : Schedule :=
  { s with timers := s.timers.filter fun t => t.event ≠ event }

/-! ## Cancellation -/

/-- Tells a fiber to stop, and says whether it had not ended before. The bound is on the depth of
its children. -/
def cancel : Nat → Nat → Schedule → Bool × Schedule
  | 0, _, s => (false, s)
  | depth + 1, i, s =>
    let all (children : List Nat) (s : Schedule) : Bool × Schedule :=
      children.foldl (fun acc c =>
        let (running, s) := cancel depth c acc.2
        (acc.1 || running, s)) (false, s)
    match s.state? i with
    | none | some (.ended _) => (false, s)
    | some (.queued _) => (true, s.setCancelled i true)
    | some (.asleep _) => (true, (s.dropTimer (.ring i)).enqueue i (.stop .cancelled))
    | some (.joining children _ _) =>
      let (running, s) := all children s
      (true, if running then s else s.setCancelled i true)
    | some (.clearing children left ending _) =>
      let (running, s) := all children s
      (true, if running then s.setState i (.clearing children left ending true)
        else s.setCancelled i true)

/-- Tells several fibers to stop. -/
def cancelAll (children : List Nat) (s : Schedule) : Schedule :=
  children.foldl (fun s c => (cancel s.fibers.size c s).2) s

/-! ## Fibers -/

/-- Whether a fiber has ended. -/
def hasEnded (s : Schedule) (i : Nat) : Bool :=
  match s.state? i with
  | some (.ended _) => true
  | _ => false

/-- Whether a fiber waits for its children to be cleared away. -/
def isClearing (s : Schedule) (i : Nat) : Bool :=
  match s.state? i with
  | some (.clearing ..) => true
  | _ => false

/-- Ends a fiber, which reports to its parent. -/
def finish (i : Nat) (ending : Ending) (s : Schedule) : Schedule :=
  let s := s.setState i (.ended ending)
  match (s.fibers[i]?).bind Fiber.parent with
  | none => s
  | some p =>
    let s := s.push (.report i false)
    if s.isClearing p then s.push (.report i true) else s

/-- Clears the children of a fiber away: they are told to stop, and those that have ended already
report at once. -/
def clear (i : Nat) (children : List Nat) (ending : Ending) (s : Schedule) : Schedule :=
  let s := s.cancelAll children
  let s := children.foldl (fun s c => if s.hasEnded c then s.push (.report c true) else s) s
  s.setState i (.clearing children children.length ending false)

/-- Starts a fiber for each branch, to be resumed one after another, and waits for them. -/
def fork (i : Nat) (branches : List Process) (next : Unit → Process) (s : Schedule) : Schedule :=
  let first := s.fibers.size
  let children := (List.range branches.length).map (first + ·)
  let fibers := branches.map fun p => Fiber.mk (some i) (.queued (.go [] fun _ => p)) false
  let s := { s with
    fibers := s.fibers ++ fibers
    queue := s.queue ++ children.map Event.resume }
  s.setState i (.joining children children.length next)

/-- Runs a process in a fiber until it comes to a halt. -/
def continueWith (env : Surroundings) (transport : Transport) (i : Nat) (p : Process)
    (s : Schedule) : Schedule :=
  let (world, pause) := p.advance env transport s.world
  let s := { s with world }
  match pause with
  | .ended ending => s.finish i ending
  | .asleep seconds next => (s.setTimer seconds (.ring i)).setState i (.asleep next)
  | .forked branches next => s.fork i branches next

/-- Resumes a fiber. -/
def resume (env : Surroundings) (transport : Transport) (i : Nat) (s : Schedule) : Schedule :=
  match s.fibers[i]? with
  | some ⟨_, .queued resumption, cancelled⟩ =>
    let s := s.setCancelled i false
    match resumption with
    | .go children next =>
      if cancelled then
        if children.isEmpty then s.finish i .cancelled else s.clear i children .cancelled
      else s.continueWith env transport i (next ())
    | .clear children ending => s.clear i children (ending.unless cancelled)
    | .stop ending => s.finish i (ending.unless cancelled)
  | _ => s

/-- Takes the report of a child whose parent waits for its children to finish. -/
def joinReport (p : Nat) (children : List Nat) (left : Nat) (next : Unit → Process)
    (ending : Ending) (s : Schedule) : Schedule :=
  match ending with
  | .finished _ =>
    if left ≤ 1 then s.enqueue p (.go children next)
    else s.setState p (.joining children (left - 1) next)
  | other => s.enqueue p (.clear children other)

/-- Takes the report of a child. -/
def report (child : Nat) (clearing : Bool) (s : Schedule) : Schedule :=
  match s.fibers[child]? with
  | some ⟨some p, .ended ending, _⟩ =>
    match s.state? p, clearing with
    | some (.joining children left next), false => s.joinReport p children left next ending
    | some (.clearing children left last cancelled), true =>
      if left ≤ 1 then s.enqueue p (.stop (last.unless cancelled))
      else s.setState p (.clearing children (left - 1) last cancelled)
    | _, _ => s
  | _ => s

/-! ## Events -/

/-- Lets an event happen. -/
def handle (env : Surroundings) (transport : Transport) (s : Schedule) : Event → Schedule
  | .resume i => s.resume env transport i
  | .ring i =>
    match s.state? i with
    | some (.asleep next) => s.enqueue i (.go [] next)
    | _ => s
  | .report child clearing => s.report child clearing
  | .expire => s.push .cutOff
  | .cutOff => (s.cancel s.fibers.size main).2

/-- Timers that are due within this time happen together. -/
def resolution : Binary64 := Binary64.ofDecimal false 1 (-9)

/-- Whether a timer is due. -/
def isDue (clock : Binary64) (t : Timer) : Bool :=
  Binary64.less t.due (clock + resolution) || t.due.sameValue clock

/-- The time of the next turn: that of the first timer if nothing else is to happen. -/
def nextClock (s : Schedule) : Binary64 :=
  match s.queue.isEmpty, s.timers with
  | true, t :: _ => if Binary64.less s.clock t.due then t.due else s.clock
  | _, _ => s.clock

/-- Lets everything in the queue happen, and the timers that are due after that. What is put into
the queue meanwhile waits for the next turn. -/
def turn (env : Surroundings) (transport : Transport) (s : Schedule) : Schedule :=
  let clock := s.nextClock
  let due := s.timers.takeWhile (isDue clock)
  let batch := s.queue ++ (due.map Timer.event)
  batch.foldl (handle env transport)
    { s with queue := #[], timers := s.timers.drop due.length, clock }

/-- Whether the run has ended. -/
def isOver (s : Schedule) : Bool := s.hasEnded main

/-- Takes turns until the run has ended, at most so many. -/
def run (env : Surroundings) (transport : Transport) : Nat → Schedule → Schedule
  | 0, s => s
  | n + 1, s => if s.isOver then s else run env transport n (s.turn env transport)

/-- The start of a run at a time. -/
def start (clock : Binary64) (world : World) (p : Process) : Schedule where
  fibers := #[⟨none, .queued (.go [] fun _ => p), false⟩]
  queue := #[.resume main]
  timers := []
  clock := clock
  world := world

/-- How the run has ended. -/
def ending (s : Schedule) : Ending :=
  match s.state? main with
  | some (.ended e) => e
  | _ => .failed (.defect .recursion)

end Schedule

end Workgraph
