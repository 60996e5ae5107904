import Workgraph.Transform
import Workgraph.Value.Compare
/-!
# Nodes

A workflow is a list of nodes. A node has an id, perhaps a name to show, and a behaviour: one of
the tasks below, after which another node may follow, or a type that is not known, whose
configuration is kept as it is. Nodes refer to each other by id; there are no other edges.
-/

namespace Workgraph

/-- A condition: a comparison of the value at a path, and the node to go to if it holds. -/
structure Condition where
  field : Option String
  operator : Option Operator
  value : Value
  thenNode : Option String

/-- What a database node does with its entity. -/
inductive StoreOperation where
  | list
  | filter
  | create
  | update
  | delete
deriving DecidableEq, Repr

namespace StoreOperation

/-- All operations. -/
def all : List StoreOperation := [list, filter, create, update, delete]

/-- The name of an operation. -/
def name : StoreOperation → String
  | list => "list"
  | filter => "filter"
  | create => "create"
  | update => "update"
  | delete => "delete"

/-- The operation of a name. -/
def ofName? (s : String) : Option StoreOperation := all.find? fun o => o.name = s

end StoreOperation

/-- A unit of time. -/
inductive TimeUnit where
  | seconds
  | minutes
  | hours
deriving DecidableEq, Repr

namespace TimeUnit

/-- All units. -/
def all : List TimeUnit := [seconds, minutes, hours]

/-- The name of a unit. -/
def name : TimeUnit → String
  | seconds => "seconds"
  | minutes => "minutes"
  | hours => "hours"

/-- The unit of a name. -/
def ofName? (s : String) : Option TimeUnit := all.find? fun u => u.name = s

/-- The seconds in a unit. -/
def length : TimeUnit → Nat
  | seconds => 1
  | minutes => 60
  | hours => 3600

end TimeUnit

/-- An outgoing call. -/
structure ApiCall where
  method : String
  url : String
  headers : Entries String
  body : Value
  responseVariable : Option String

/-- An operation on the records of an entity. -/
structure DatabaseQuery where
  entity : String
  operation : Option StoreOperation
  filter : Option (Entries Value)
  data : Option (Entries Value)
  resultVariable : Option String

/-- What a node of a known type does. -/
inductive Task where
  | trigger
  /-- Goes to the node of the first condition that holds, else to another. -/
  | condition (conditions : List Condition) (elseNode : Option String)
  /-- Visits a node for each item of a list, at most so many times. -/
  | loop (arrayField itemVariable loopNode : Option String) (maxIterations : Option Int)
  /-- Visits several nodes side by side. -/
  | parallel (paths : List (Option String))
  | apiCall (call : ApiCall)
  | databaseQuery (query : DatabaseQuery)
  /-- Applies transforms to a variable. -/
  | dataTransform (source : Option String) (steps : List TransformStep) (output : Option String)
  /-- Keeps the items of a list for which all conditions hold. -/
  | filter (source : Option String) (conditions : List Condition) (output : Option String)
  /-- Waits for a number of units, none by default. -/
  | delay (duration : Option Binary64) (unit : TimeUnit)
  | output

namespace Task

/-- The name of the type of a task. -/
def typeName : Task → String
  | trigger => "trigger"
  | condition .. => "condition"
  | loop .. => "loop"
  | parallel _ => "parallel"
  | apiCall _ => "api_call"
  | databaseQuery _ => "database_query"
  | dataTransform .. => "data_transform"
  | filter .. => "filter"
  | delay .. => "delay"
  | output => "output"

/-- The names of the known types. -/
def typeNames : List String :=
  ["trigger", "condition", "loop", "parallel", "api_call", "database_query", "data_transform",
    "filter", "delay", "output"]

end Task

/-- What a node does, and what it goes on with. -/
inductive Behaviour where
  | known (task : Task) (next : Option String)
  | unknown (type : String) (config : Entries Value)

/-- A node. -/
structure Node where
  id : String
  name : Option String
  behaviour : Behaviour

/-- A text that is there and not empty. -/
def filled : Option String → Option String
  | some s => if s = "" then none else some s
  | none => none

namespace Node

/-- The name of the type of a node. -/
def typeName (n : Node) : String :=
  match n.behaviour with
  | .known task _ => task.typeName
  | .unknown type _ => type

/-- The node to go on with, as the configuration gives it. -/
def next (n : Node) : Option String :=
  match n.behaviour with
  | .known _ next => next
  | .unknown _ config =>
    match config.get? "nextNodeId" with
    | some (.text s) => filled (some s)
    | _ => none

/-- The name to show: the id if the node has no name. -/
def label (n : Node) : String := (filled n.name).getD n.id

end Node

/-- The seconds of a delay. -/
def delaySeconds (duration : Option Binary64) (unit : TimeUnit) : Binary64 :=
  match duration with
  | some d => d * Binary64.ofInt unit.length
  | none => Binary64.zero false

end Workgraph
