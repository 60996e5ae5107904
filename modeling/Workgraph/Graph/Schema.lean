import Workgraph.Graph.Node
import Workgraph.Schema.Part
import Workgraph.Text.Case
/-!
# Reading nodes

From a value to a node. The type of a node chooses the fields of its configuration; a type that is
not known leaves the configuration open. Names of configuration fields may be written in camel case
or in lower case with underscores.
-/

namespace Workgraph

open Schema

/-- A condition from its fields. -/
def Condition.ofFields (fields : Entries Value) : Fit Condition :=
  Condition.mk <$> nullableField "field" "field" text fields
    <*> nullableField "operator" "operator"
      (among (Operator.all.map Operator.name) Operator.ofName?) fields
    <*> optionalField .null "value" "value" any fields
    <*> nullableField "thenNodeId" "then_node_id" text fields

/-- A list of conditions. -/
def conditionList : Value → Fit (List Condition) := list (record "Condition" Condition.ofFields)

/-- A path of a parallel node. -/
def pathNode (fields : Entries Value) : Fit (Option String) :=
  nullableField "nodeId" "node_id" text fields

/-- A step of a pipeline from its fields. -/
def TransformStep.ofFields (fields : Entries Value) : Fit TransformStep :=
  TransformStep.mk <$> requiredField "type" "type" text fields
    <*> optionalField [] "params" "params" (dictionary any) fields

/-- The method of a call without blanks around it and in upper case; GET if nothing is left. -/
def methodName (s : String) : String :=
  let name := Text.upper (Text.strip s)
  if name = "" then "GET" else name

namespace Task

/-- The names of the records that hold the configurations. -/
def configName : String → String
  | "trigger" => "TriggerConfig"
  | "condition" => "ConditionConfig"
  | "loop" => "LoopConfig"
  | "parallel" => "ParallelConfig"
  | "api_call" => "ApiCallConfig"
  | "database_query" => "DatabaseQueryConfig"
  | "data_transform" => "DataTransformConfig"
  | "filter" => "FilterConfig"
  | "delay" => "DelayConfig"
  | _ => "OutputConfig"

/-- A call from the fields of a configuration. -/
def apiCallOfFields (fields : Entries Value) : Fit Task :=
  (fun method url headers body result =>
      Task.apiCall ⟨methodName method, url, headers, body, result⟩)
    <$> optionalField "GET" "method" "method" text fields
    <*> requiredField "url" "url" someText fields
    <*> optionalField [] "headers" "headers" (dictionary text) fields
    <*> optionalField .null "body" "body" any fields
    <*> nullableField "responseVariableName" "response_variable_name" text fields

/-- An operation on records from the fields of a configuration. -/
def databaseQueryOfFields (fields : Entries Value) : Fit Task :=
  (fun entity operation filter data result =>
      Task.databaseQuery ⟨entity, operation, filter, data, result⟩)
    <$> requiredField "entityName" "entity_name" someText fields
    <*> nullableField "operation" "operation"
      (among (StoreOperation.all.map StoreOperation.name) StoreOperation.ofName?) fields
    <*> nullableField "filter" "filter" (dictionary any) fields
    <*> nullableField "data" "data" (dictionary any) fields
    <*> nullableField "variableName" "variable_name" text fields

/-- The task of a known type from the fields of its configuration. -/
def ofFields (type : String) (fields : Entries Value) : Fit Task :=
  match type with
  | "trigger" => .fits trigger
  | "condition" =>
    condition <$> optionalField [] "conditions" "conditions" conditionList fields
      <*> nullableField "elseNodeId" "else_node_id" text fields
  | "loop" =>
    loop <$> nullableField "arrayField" "array_field" text fields
      <*> nullableField "itemVariableName" "item_variable_name" text fields
      <*> nullableField "loopNodeId" "loop_node_id" text fields
      <*> nullableField "maxIterations" "max_iterations" (integerFrom 0) fields
  | "parallel" =>
    parallel <$> optionalField [] "paths" "paths" (list (record "ParallelPath" pathNode)) fields
  | "api_call" => apiCallOfFields fields
  | "database_query" => databaseQueryOfFields fields
  | "data_transform" =>
    dataTransform <$> nullableField "sourceVariable" "source_variable" text fields
      <*> optionalField [] "transformations" "transformations"
        (list (record "Transformation" TransformStep.ofFields)) fields
      <*> nullableField "outputVariable" "output_variable" text fields
  | "filter" =>
    filter <$> nullableField "arrayVariable" "array_variable" text fields
      <*> optionalField [] "conditions" "conditions" conditionList fields
      <*> nullableField "outputVariable" "output_variable" text fields
  | "delay" =>
    delay <$> optionalField none "duration" "duration" (fun v => some <$> realFrom 0 v) fields
      <*> optionalField .seconds "unit" "unit"
        (among (TimeUnit.all.map TimeUnit.name) TimeUnit.ofName?) fields
  | _ => .fits output

/-- Whether a configuration of the type must be given. -/
def needsConfig (type : String) : Bool := type = "api_call" || type = "database_query"

end Task

namespace Behaviour

/-- The behaviour of a known type from the fields of its configuration. -/
def ofConfig (type : String) (fields : Entries Value) : Fit Behaviour :=
  (fun next task => Behaviour.known task next)
    <$> nullableField "nextNodeId" "next_node_id" text fields
    <*> Task.ofFields type fields

/-- The behaviour of a node of a known type from the fields of the node. -/
def knownOfFields (type : String) (fields : Entries Value) : Fit Behaviour :=
  let config := record (Task.configName type) (ofConfig type)
  if Task.needsConfig type then requiredField "config" "config" config fields
  else fieldOr (ofConfig type []) "config" "config" config fields

/-- The behaviour of a node of any other type from the fields of the node. -/
def unknownOfFields (fields : Entries Value) : Fit Behaviour :=
  Behaviour.unknown <$> requiredField "type" "type" text fields
    <*> optionalField [] "config" "config" (dictionary any) fields

end Behaviour

namespace Node

/-- The kind of a node that decides its fields: its type if that is known. A type that is a list or
an object cannot be looked up. -/
def knownType (v : Value) : Except Defect (Option String) :=
  match v.field? "type" with
  | some (.text s) => .ok (if Task.typeNames.contains s then some s else none)
  | some (.list _) => .error (.unhashable "list")
  | some (.object _) => .error (.unhashable "dict")
  | _ => .ok none

/-- A node from its fields. -/
def ofFields (known : Option String) (fields : Entries Value) : Fit Node :=
  Node.mk <$> requiredField "id" "id" someText fields
    <*> nullableField "name" "name" text fields
    <*> match known with
      | some type => Behaviour.knownOfFields type fields
      | none => Behaviour.unknownOfFields fields

/-- The name of the record of a node. -/
def recordName : Option String → String
  | some "trigger" => "TriggerNode"
  | some "condition" => "ConditionNode"
  | some "loop" => "LoopNode"
  | some "parallel" => "ParallelNode"
  | some "api_call" => "ApiCallNode"
  | some "database_query" => "DatabaseQueryNode"
  | some "data_transform" => "DataTransformNode"
  | some "filter" => "FilterNode"
  | some "delay" => "DelayNode"
  | some "output" => "OutputNode"
  | _ => "UnknownNode"

/-- The name of the kind of a node. -/
def kindName (known : Option String) : String := known.getD "unknown"

/-- A node from a value. The path of a misfit begins with the kind of the node. -/
def ofValue (v : Value) : Except Defect (Fit Node) := do
  let known ← knownType v
  return (record (recordName known) (ofFields known) v).within (.field (kindName known))

end Node

/-- The nodes of a list of values, from an index on. -/
def nodesFrom (index : Nat) : List Value → Except Defect (Fit (List Node))
  | [] => .ok (.fits [])
  | v :: rest => do
    let first ← Node.ofValue v
    let others ← nodesFrom (index + 1) rest
    return List.cons <$> first.within (.item index) <*> others

/-- The nodes of a value. -/
def nodesOf : Value → Except Defect (Fit (List Node))
  | .list items => return (← nodesFrom 0 items).within (.field "nodes")
  | _ => .ok ((Fit.refuse .notList).within (.field "nodes"))

/-- The id that is given to a node, of whatever form it is. -/
def Value.givenId (v : Value) : Value := (v.field? "id").getD .null

/-- The start of a line about a node: its id if it has one, else its position. -/
def nodePrefix (items : List Value) (index : Nat) : String :=
  let id := (items[index]?.map Value.givenId).getD .null
  if id.isPresent then "Node '" ++ id.shown ++ "'" else "Node #" ++ digitsText index

/-- The line for a misfit among nodes. Its path leaves out steps that are names of kinds. -/
def nodeLine (items : List Value) (m : Misfit) : String :=
  match m.path with
  | .field "nodes" :: .item index :: rest =>
    let shown := rest.filter fun
      | .field name => !Task.typeNames.contains name && name ≠ "unknown"
      | .item _ => true
    nodePrefix items index ++ ": " ++ ({ m with path := shown } : Misfit).line
  | _ => m.line

/-- Whether the line for a misfit names an id that cannot be written. -/
def namesLongId (items : List Value) (m : Misfit) : Bool :=
  match m.path with
  | .field "nodes" :: .item index :: _ => items[index]?.any fun v => v.givenId.hasLongInteger
  | _ => false

/-- The lines for misfits among nodes, if the ids that they name can be written. -/
def nodeLines (v : Value) (found : List Misfit) : Except Defect (List String) :=
  let items := match v with
    | .list items => items
    | _ => []
  if found.any (namesLongId items) then .error .longInteger else .ok (found.map (nodeLine items))

end Workgraph
