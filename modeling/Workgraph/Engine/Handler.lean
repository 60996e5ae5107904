import Workgraph.Engine.Process
import Workgraph.Graph.Reference
import Workgraph.Settings.Basic
import Workgraph.Template
import Workgraph.Value.Json
/-!
# Running nodes

The process of a node: the visit is entered into the trace, the task is done, and the node to go on
with is run. A node that schedules others does so by running them with the variables it has. The
depth to which nodes may schedule each other is bounded.
-/

namespace Workgraph

/-- The variable that holds the number of the present turn of a loop. -/
def loopIndexKey : String := "__loopIndex"

/-- The variable that holds the status of the last call. -/
def lastStatusKey : String := "__lastStatusCode"

/-- The variables that nodes set for themselves, in order. -/
def reservedKeys : List String := [lastStatusKey, loopIndexKey]

/-- The value at a path of the variables, null if there is no path. -/
def variableAt (context : Context) (path : Option String) : Except Defect Value :=
  match filled path with
  | some p => (Value.object context).lookup p
  | none => .ok .null

namespace Condition

/-- Whether a condition holds for the variables. -/
def holdsIn (context : Context) (c : Condition) : Except Defect Bool := do
  let v ← variableAt context c.field
  v.meets c.operator c.value

/-- Whether a condition holds for an item. Without a path the item itself is compared. -/
def holdsFor (item : Value) (c : Condition) : Except Defect Bool := do
  let v ← item.lookup (c.field.getD "")
  v.meets c.operator c.value

/-- The node of the first condition that holds, else the other one. -/
def choose (context : Context) (elseNode : Option String) :
    List Condition → Except Defect (Option String)
  | [] => .ok elseNode
  | c :: rest => do
    if ← c.holdsIn context then return c.thenNode
    choose context elseNode rest

/-- Whether all conditions hold for an item. -/
def allHold (item : Value) : List Condition → Except Defect Bool
  | [] => .ok true
  | c :: rest => do
    if ← c.holdsFor item then allHold item rest else return false

/-- The items for which all conditions hold. -/
def keep (conditions : List Condition) : List Value → Except Defect (List Value)
  | [] => .ok []
  | v :: rest => do
    let kept ← allHold v conditions
    let others ← keep conditions rest
    return if kept then v :: others else others

end Condition

/-- A name, or the default if it is missing or empty. -/
def nameOr (name : Option String) (default : String) : String := (filled name).getD default

/-- The cap of a loop. -/
def loopCap (settings : Settings) (maxIterations : Option Int) : Nat :=
  match maxIterations with
  | some n => if n = 0 then settings.maxIterations.toNat else n.toNat
  | none => settings.maxIterations.toNat

/-- The variables at the start of a turn of a loop. -/
def turnContext (itemVariable : Option String) (index : Nat) (item : Value) (context : Context) :
    Context :=
  let numbered := context.set loopIndexKey (.int index)
  match filled itemVariable with
  | some name => numbered.set name item
  | none => numbered

/-- The turns of a loop from an index on, each with the variables that the one before left. -/
def turns (itemVariable : Option String) (body : Context → Process) (index : Nat) :
    List Value → Context → Process
  | [], context => .done context
  | item :: rest, context =>
    (body (turnContext itemVariable index item context)).bind
      (turns itemVariable body (index + 1) rest)

/-- Runs a node, if one is given. -/
def runFilled (run : String → Context → Process) (id : Option String) (context : Context) :
    Process :=
  match filled id with
  | some i => run i context
  | none => .done context

namespace ApiCall

/-- The body of a call as text: a text as it is, anything else as JSON, and nothing for null. -/
def bodyText : Value → Except Defect (Option String)
  | .null => .ok none
  | .text s => .ok (if s = "" then none else some s)
  | v => (Json.document v).map some

/-- The request of a call. -/
def request (settings : Settings) (context : Context) (c : ApiCall) :
    Except Defect CallRequest := do
  let url ← Template.interpolate c.url context
  return ⟨c.method, url, settings.defaultHeaders.merge c.headers, ← bodyText c.body⟩

/-- The process of a call: its answer becomes a variable, and its status another. -/
def process (settings : Settings) (context : Context) (c : ApiCall) : Process :=
  .ofExcept (liftDefect (c.request settings context)) fun request =>
    .call request fun answer =>
      .done ((context.set (nameOr c.responseVariable "apiResponse") answer.body).set lastStatusKey
        (.int answer.status))

end ApiCall

namespace DatabaseQuery

/-- The action of an operation, or the warning that takes its place. -/
def action (id : String) (q : DatabaseQuery) : Except String StoreAction :=
  let criteria := q.filter.getD []
  let data := q.data.getD []
  let record (operation : StoreOperation) (act : String → StoreAction) :=
    match (criteria.get? "id").getD .null with
    | .null | .text "" =>
      .error ("Database node " ++ id ++ ": " ++ operation.name ++
        " without filter.id is a no-op")
    | v => .ok (if v.hasLongInteger then .refuse .longInteger else act v.shown)
  match q.operation with
  | some .list => .ok .list
  | some .filter => .ok (.filter criteria)
  | some .create => .ok (.create data)
  | some .update => record .update fun recordId => .update recordId data
  | some .delete => record .delete .delete
  | none => .error ("Database node " ++ id ++ ": no operation set, skipping")

/-- The process of an operation on records: its result becomes a variable. The entity must exist
even if nothing is done to it. -/
def process (id : String) (context : Context) (q : DatabaseQuery) : Process :=
  let finish (v : Value) : Process := .done (context.set (nameOr q.resultVariable "dbResult") v)
  match q.action id with
  | .ok action => .store ⟨q.entity, action⟩ finish
  | .error words => .store ⟨q.entity, .find⟩ fun _ => .warn words fun _ => finish .null

end DatabaseQuery

/-- The process of a loop. Anything but a list counts as no items. -/
def loopProcess (settings : Settings) (run : String → Context → Process) (id : String)
    (arrayField itemVariable loopNode : Option String) (maxIterations : Option Int)
    (context : Context) : Process :=
  .ofExcept (liftDefect (variableAt context arrayField)) fun
    | .list items =>
      let cap := loopCap settings maxIterations
      let capped := if items.length > cap then
          ["Loop node " ++ id ++ ": " ++ digitsText items.length ++ " items capped at " ++
            digitsText cap ++ " iterations"]
        else []
      .warnAll capped fun _ =>
        turns itemVariable (runFilled run loopNode) 0 (items.take cap) context
    | .null => .done context
    | v =>
      .warn ("Loop node " ++ id ++ ": '" ++ arrayField.getD "" ++ "' is " ++ v.kind ++
        ", not a list; running zero iterations") fun _ => .done context

/-- The process of a task of the node with the given id. Other nodes are run by `run`. -/
def Task.process (settings : Settings) (run : String → Context → Process) (id : String)
    (context : Context) : Task → Process
  | .trigger | .output => .done context
  | .condition conditions elseNode =>
    .ofExcept (liftDefect (Condition.choose context elseNode conditions)) fun target =>
      runFilled run target context
  | .loop arrayField itemVariable loopNode maxIterations =>
    loopProcess settings run id arrayField itemVariable loopNode maxIterations context
  | .parallel paths =>
    match paths.filterMap filled with
    | [] => .done context
    | targets => .fork (targets.map fun target => run target context) fun _ => .done context
  | .apiCall c => c.process settings context
  | .databaseQuery q => q.process id context
  | .dataTransform source steps result =>
    .ofExcept (do pipeline steps context (← liftDefect (variableAt context source))) fun v =>
      .done (context.set (nameOr result "transformed") v)
  | .filter source conditions result =>
    .ofExcept (liftDefect (do
      match ← variableAt context source with
      | .list items => Condition.keep conditions items
      | _ => return [])) fun kept =>
      .done (context.set (nameOr result "filtered") (.list kept))
  | .delay duration unit =>
    let seconds := delaySeconds duration unit
    if Binary64.less (Binary64.zero false) seconds then .sleep seconds fun _ => .done context
    else .done context

/-- The process of what a node does. -/
def Behaviour.process (settings : Settings) (run : String → Context → Process) (id : String)
    (context : Context) : Behaviour → Process
  | .known task _ => task.process settings run id context
  | .unknown type _ =>
    .warn ("Node " ++ id ++ " has unknown type '" ++ type ++ "', skipping") fun _ => .done context

namespace Graph

/-- The process of the node with an id, to which nodes may schedule each other to the given
depth. -/
def process (g : Graph) (settings : Settings) : Nat → String → Context → Process
  | 0, _, _ => .fail (.defect .recursion)
  | depth + 1, id, context =>
    match g.find? id with
    | none => .fail (.nodeNotFound id none)
    | some n =>
      .visit n.id n.typeName fun _ =>
        (n.behaviour.process settings (g.process settings depth) n.id context).bind
          (runFilled (g.process settings depth) n.next)

/-- The processes of several nodes one after another. -/
def processAll (g : Graph) (settings : Settings) (depth : Nat) : List String → Context → Process
  | [], context => .done context
  | id :: rest, context =>
    (g.process settings depth id context).bind (g.processAll settings depth rest)

end Graph

end Workgraph
