import Workgraph.Schema.Part
import Workgraph.Service.Target
/-!
# Requests to the service

What the service is asked for. The content of a request is JSON; its fields are checked before
anything is done.
-/

namespace Workgraph.Service

open Schema

/-- A request: a method, a target and a content, which may be empty. -/
structure Request where
  method : String
  target : Target
  content : String

/-- Why a request is refused. -/
inductive Refusal where
  /-- The content is no JSON, at a place. -/
  | notJson (position : Nat)
  /-- The content holds an integer with more digits than are converted. -/
  | unreadable
  | misfits (found : List Misfit)
deriving DecidableEq, Repr

/-- The words for a refusal. -/
def Refusal.message : Refusal → String
  | .notJson position => "Invalid request: " ++ digitsText position ++ ": JSON decode error"
  | .unreadable => "There was an error parsing the body"
  | .misfits found => "Invalid request: " ++ "; ".intercalate (found.map Misfit.line)

/-- The refusal of a content that cannot be read. -/
def Refusal.ofReadError (e : Json.ReadError) : Refusal :=
  match e.fault with
  | .longNumeral _ => .unreadable
  | _ => .notJson e.position

/-- The value of a content. An empty one is null. -/
def readContent (content : String) : Except Refusal Value :=
  if content = "" then .ok .null
  else
    match Json.decode (Json.withoutMark content) with
    | .ok v => .ok v
    | .error e => .error (.ofReadError e)

/-- The fields of a value that must be there. -/
def contentFields (parts : Entries Value → Fit α) : Value → Fit α
  | .null => .refuse .missing
  | .object fields => parts fields
  | _ => .refuse .notFields

/-- A list of nodes, of which only that they are dictionaries has been checked. -/
def nodeList (v : Value) : Fit (List (Entries Value)) := list (dictionary any) v

/-- A request to run a workflow. -/
structure ExecuteRequest where
  nodes : Option (List (Entries Value))
  initialContext : Option Context

/-- A request to run a workflow, from a value. -/
def ExecuteRequest.ofValue : Value → Fit ExecuteRequest :=
  contentFields fun fields =>
    ExecuteRequest.mk
      <$> nullableField "nodes" "nodes" nodeList fields
      <*> nullableField "initialContext" "initial_context" (dictionary any) fields

/-- The nodes of a request to check a workflow, none by default. -/
def checkedNodes : Value → Fit (List (Entries Value)) :=
  contentFields fun fields => optionalField [] "nodes" "nodes" nodeList fields

/-- The usual limit of a list of runs. -/
def standardLimit : Int := 50

/-- The largest limit of a list of runs. -/
def maxLimit : Int := 500

/-- The limit of a list of runs, from the parameters of a request. Limits out of range are brought
into it. -/
def limitOf (t : Target) : Fit Int :=
  match t.parameter? "limit" with
  | none => .fits standardLimit
  | some s =>
    (((integer (.text s)).within (.field "limit")).within (.field "query")).map fun n =>
      max 1 (min n maxLimit)

/-- What the service offers. -/
inductive Route where
  | execute
  | validate
  | executions
  | execution (id : String)
  | health
deriving DecidableEq, Repr

namespace Route

/-- The method of requests for a route. -/
def method : Route → String
  | execute | validate => "POST"
  | executions | execution _ | health => "GET"

/-- The path before the id of a run. -/
def executionPath : String := "/api/executions/"

/-- The route of a path. -/
def ofPath? (path : String) : Option Route :=
  match path with
  | "/api/execute" => some execute
  | "/api/validate" => some validate
  | "/api/executions" => some executions
  | "/api/health" => some health
  | _ =>
    let id := path.toList.drop executionPath.length
    if executionPath.toList.isPrefixOf path.toList && !id.isEmpty && !id.contains '/' then
      some (execution (String.ofList id))
    else none

/-- The route of a path, also if it has slashes at the end that it should not have. -/
def find? (path : String) : Option Route :=
  match ofPath? path with
  | some r => some r
  | none =>
    let back := path.toList.reverse
    ofPath? (String.ofList (back.dropWhile (· = '/')).reverse)

end Route

end Workgraph.Service
