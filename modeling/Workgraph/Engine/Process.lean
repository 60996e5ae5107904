import Workgraph.Fault
import Workgraph.Store.Repository
/-!
# Processes

What a node does when it runs, as a tree: at each step the process is done with new variables, has
failed, or does one thing to the world and goes on with what it learns from it. Processes are put
one after another by `Process.bind`. Nothing here says in which order the branches of a process are
run; that is up to whoever runs it.
-/

namespace Workgraph

/-- An outgoing call with everything filled in. -/
structure CallRequest where
  method : String
  url : String
  headers : Entries String
  body : Option String
deriving DecidableEq, Repr

/-- The answer to a call: its status, and its body as a value. -/
structure CallAnswer where
  status : Int
  body : Value

/-- What comes of a call: an answer or a fault, after a number of seconds. -/
structure CallReply where
  delay : Binary64
  outcome : Except Fault CallAnswer

/-- Whatever answers calls. -/
abbrev Transport := CallRequest → CallReply

/-- A request to the store. -/
structure StoreRequest where
  entity : String
  action : StoreAction

/-- What remains to be done. -/
inductive Process where
  /-- Nothing, with these variables at the end. -/
  | done (context : Context)
  /-- Nothing, since something went wrong. -/
  | fail (fault : Fault)
  /-- A visit of a node is entered into the trace. -/
  | visit (id type : String) (next : Unit → Process)
  /-- A warning is given. -/
  | warn (words : String) (next : Unit → Process)
  /-- The store is asked; a fault of the store is the fault of the process. -/
  | store (request : StoreRequest) (next : Value → Process)
  /-- A call is made; a fault of the call is the fault of the process. -/
  | call (request : CallRequest) (next : CallAnswer → Process)
  /-- Some seconds go by. -/
  | sleep (seconds : Binary64) (next : Unit → Process)
  /-- Several processes run side by side to their ends. -/
  | fork (branches : List Process) (next : Unit → Process)

namespace Process

/-- One process, and then another with the variables of the first. -/
def bind : Process → (Context → Process) → Process
  | done context, k => k context
  | fail fault, _ => fail fault
  | visit id type next, k => visit id type fun u => (next u).bind k
  | warn words next, k => warn words fun u => (next u).bind k
  | store request next, k => store request fun v => (next v).bind k
  | call request next, k => call request fun a => (next a).bind k
  | sleep seconds next, k => sleep seconds fun u => (next u).bind k
  | fork branches next, k => fork branches fun u => (next u).bind k

/-- Several warnings, and then the process. -/
def warnAll (words : List String) (p : Unit → Process) : Process :=
  match words with
  | [] => p ()
  | w :: rest => warn w fun _ => warnAll rest p

/-- The process of a result, which fails if there is none. -/
def ofExcept {α : Type} (result : Except Fault α) (p : α → Process) : Process :=
  match result with
  | .ok a => p a
  | .error f => fail f

end Process

end Workgraph
