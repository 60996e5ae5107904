import Workgraph.Display.Markup
import Workgraph.Value.Coerce
import Workgraph.Value.Json
import Workgraph.Yaml.Read
/-!
# Workflow files

A workflow file holds a list of nodes, or a mapping with the nodes and perhaps the variables to
start with. It is JSON if its name says so and YAML otherwise. Variables may also come from a file
of their own, which is YAML, or from a JSON text.
-/

namespace Workgraph

/-- The nodes of a workflow file, and the variables to start with. -/
structure WorkflowFile where
  nodes : List Value
  initialContext : Context

/-- Why a workflow file cannot be used. -/
inductive WorkflowFileFault where
  | json (file text : String) (problem : Json.ReadError)
  | yaml (file : String) (problem : Yaml.Misread)
  | shape (file kind : String)
  | context
  /-- Reading the file fails in a way that is not about its form. -/
  | defect (cause : Defect)

/-- The words for a fault. -/
def WorkflowFileFault.message : WorkflowFileFault → String
  | json file text problem => "Cannot parse '" ++ file ++ "': " ++ problem.message text
  | yaml file problem => "Cannot parse '" ++ file ++ "': " ++ problem.message file
  | shape file kind =>
    "Expected a node list or a mapping with 'nodes' in '" ++ file ++ "', got " ++ kind
  | context => "initialContext must be a mapping"
  | defect cause => cause.message

namespace WorkflowFile

/-- Whether the name of a file says that it is JSON. -/
def isJson (file : String) : Bool := ".json".toList.reverse.isPrefixOf file.toList.reverse

/-- The value of a text that a file holds. -/
def valueOf (file text : String) : Except WorkflowFileFault Value :=
  if isJson file then
    match Json.decode text with
    | .ok v => .ok v
    | .error ⟨.longNumeral digits, _⟩ => .error (.defect (.longNumeral digits))
    | .error problem => .error (.json file text problem)
  else
    match Yaml.read text with
    | .ok v => .ok v
    | .error (.longNumeral digits) => .error (.defect (.longNumeral digits))
    | .error problem => .error (.yaml file problem)

/-- The workflow of a value that a file holds. -/
def ofValue (file : String) (v : Value) : Except WorkflowFileFault WorkflowFile :=
  match v, v.field? "nodes" with
  | .list nodes, _ => .ok ⟨nodes, []⟩
  | .object fields, some (.list nodes) =>
    let initial := (Entries.get? fields "initialContext").getD .null
    if !initial.isPresent then .ok ⟨nodes, []⟩
    else
      match initial with
      | .object context => .ok ⟨nodes, context⟩
      | _ => .error .context
  | _, _ => .error (.shape file v.kind)

/-- The workflow of a text that a file holds. -/
def ofText (file text : String) : Except WorkflowFileFault WorkflowFile := do
  ofValue file (← valueOf file text)

end WorkflowFile

/-- Why variables to start with cannot be used. -/
inductive ContextFault where
  | notMapping (file : String)
  | notObject
  | yaml (file : String) (problem : Yaml.Misread)
  | json (text : String) (problem : Json.ReadError)

/-- The words for a fault. -/
def ContextFault.message : ContextFault → String
  | notMapping file => file ++ " must contain a mapping"
  | notObject => "--context must be a JSON object"
  | yaml file problem => problem.message file
  | json text problem => problem.message text

namespace Context

/-- The variables of a text that a file holds. -/
def ofFile (file text : String) : Except ContextFault Context :=
  match Yaml.read text with
  | .error problem => .error (.yaml file problem)
  | .ok v =>
    if !v.isPresent then .ok []
    else
      match v with
      | .object context => .ok context
      | _ => .error (.notMapping file)

/-- The variables of a JSON text. An empty text has none. -/
def ofJson (text : String) : Except ContextFault Context :=
  if text = "" then .ok []
  else
    match Json.decode text with
    | .error problem => .error (.json text problem)
    | .ok (.object context) => .ok context
    | .ok _ => .error .notObject

end Context

end Workgraph
