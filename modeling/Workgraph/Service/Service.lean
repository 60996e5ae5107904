import Workgraph.Graph.Check
import Workgraph.History.Schema
import Workgraph.History.Written
import Workgraph.Service.Request
import Workgraph.Site.Site
/-!
# The service

Runs and checks workflows on request, and shows the history of runs. The settings and the database
of the project are looked for when they are first needed and kept from then on. A request is refused
before anything is run; a run that fails is answered with a status that says how.
-/

namespace Workgraph

/-- A service, started in a folder of a site. -/
structure Service where
  site : Site
  folder : String
  /-- The folder of the project, once it has been looked for. -/
  project : Option String
  settings : Option Settings
  /-- The database, once it has been opened. -/
  database : Option String
  notices : Array Notice
  calls : Array CallRequest

namespace Service

/-- A service that has not been asked for anything yet. -/
def start (site : Site) (folder : String) : Service :=
  ⟨site, folder, none, none, none, #[], #[]⟩

/-- The version of the service. -/
def version : String := "0.1.0"

/-! ## Answers -/

/-- The content of an answer. -/
inductive Content where
  | json (v : Value)
  | text (s : String)

/-- An answer: a status and a content. -/
structure Answer where
  status : Nat
  content : Content

namespace Answer

/-- An answer without any failure. -/
def ok (v : Value) : Answer := ⟨200, .json v⟩

/-- An answer about a failure. -/
def failure (status : Nat) (message : String) : Answer :=
  ⟨status, .json (.object [("error", .text message)])⟩

/-- An answer about something that is not there, or not to be had in this way. -/
def detail (status : Nat) (words : String) : Answer :=
  ⟨status, .json (.object [("detail", .text words)])⟩

/-- The answer to a request that is refused. -/
def refusal (r : Refusal) : Answer :=
  match r with
  | .unreadable => detail 400 r.message
  | _ => failure 400 r.message

/-- An answer as it is sent for a method. One that is asked for its head alone has no content. -/
def sentFor (method : String) (a : Answer) : Answer :=
  if method = "HEAD" then { a with content := .text "" } else a

/-- The answer if the service itself does not work. -/
def breakdown : Answer := ⟨500, .text "Internal Server Error"⟩

end Answer

/-! ## The project -/

/-- A step of the service, which may end with an answer at once. -/
abbrev Serving := ExceptT Answer (StateM Service)

/-- The value of a step that must not fail. -/
def require {ε α : Type} : Except ε α → Serving α
  | .ok a => pure a
  | .error _ => throw Answer.breakdown

/-- A part of a request that must fit. -/
def fitting {α : Type} : Schema.Fit α → Serving α
  | .fits a => pure a
  | .misfits found => throw (Answer.refusal (.misfits found))

/-- The folder of the project. -/
def findProject : Serving String := do
  let s ← get
  let project := s.project.getD (s.site.projectOf s.folder)
  set { s with project := some project }
  return project

/-- The settings of the project. -/
def findSettings : Serving Settings := do
  match (← get).settings with
  | some settings => return settings
  | none =>
    let file := Settings.fileOf none (← findProject)
    let settings ← require (Settings.load file ((← get).site.text? file))
    modify fun s => { s with settings := some settings }
    return settings

/-- The database of the project. -/
def findDatabase : Serving String := do
  let settings ← findSettings
  match (← get).database with
  | some file => return file
  | none =>
    let project ← findProject
    let name := FileName.join project settings.databasePath
    let site ← require ((← get).site.openArchive project name)
    let file := FileName.resolve project name
    modify fun s => { s with site, database := some file }
    return file

/-- The history of the project, if one is kept. -/
def findHistory : Serving (Option History) := do
  if (← findSettings).recordHistory then
    let file ← findDatabase
    return some ((← get).site.archive file).history
  else return none

/-! ## Running and checking -/

/-- The status of an answer about a fault. -/
def statusOf : Fault → Nat
  | .invalidGraph _ | .malformed _ | .nodeNotFound .. => 400
  | .entityNotFound _ => 404
  | .transport .. => 502
  | _ => 500

/-- The words of an answer about a fault. One without words is named. -/
def faultWords (f : Fault) : String := if f.message = "" then f.name else f.message

/-- The notice about a fault that an operator should know of. -/
def faultNotices (f : Fault) : List String :=
  if !f.isReported then ["Unexpected error during workflow execution"]
  else if statusOf f ≥ 500 then ["Workflow execution failed: " ++ f.message]
  else []

/-- The answer about a run. Numbers that are not finite have no place in it. -/
def runAnswer (o : WorkflowOutcome) : Answer :=
  match o.result with
  | .completed context => .ok (runResponse context o.trace).finitePart
  | .failed f => .failure (statusOf f) (faultWords f)
  | .timedOut => .failure 500 "TimeoutError"

/-- The notices about a run. -/
def runNotices (o : WorkflowOutcome) : List String :=
  match o.result with
  | .failed f => faultNotices f
  | _ => []

/-- Runs the nodes of a request. -/
def runNodes (host : Host) (settings : Settings) (file : String) (nodes : List (Entries Value))
    (initial : Context) : Serving Answer := do
  let s ← get
  let (outcome, after) := (host.engine settings).execute (.list (nodes.map Value.object)) none
    initial (s.site.session file settings.recordHistory)
  let world := (runNotices outcome).foldl (fun w words => w.notify .error words) after.scene.world
  set { s with
    site := s.site.afterSession file after
    notices := s.notices ++ world.notices
    calls := s.calls ++ world.calls }
  return runAnswer outcome

/-- Runs the workflow of a value. -/
def executeValue (host : Host) (body : Value) : Serving Answer := do
  let settings ← findSettings
  let file ← findDatabase
  modify fun s => { s with site := s.site.register file settings.entities }
  let request ← fitting (ExecuteRequest.ofValue body)
  match request.nodes with
  | none | some [] => return .failure 400 "No nodes to execute"
  | some nodes => runNodes host settings file nodes (request.initialContext.getD [])

/-- Runs a workflow. -/
def execute (host : Host) (content : String) : Serving Answer :=
  match readContent content with
  | .ok body => executeValue host body
  | .error r => throw (Answer.refusal r)

/-- Checks a workflow without running it. -/
def validate (content : String) : Serving Answer := do
  let body ← match readContent content with
    | .ok v => pure v
    | .error r => throw (Answer.refusal r)
  let nodes ← fitting (checkedNodes body)
  let found ← require (findings (.list (nodes.map Value.object)))
  let texts (xs : List String) : Value := .list (xs.map Value.text)
  return .ok (.object [("valid", .bool found.errors.isEmpty), ("errors", texts found.errors),
    ("warnings", texts found.warnings)])

/-! ## History -/

/-- Lists the latest runs. -/
def listRuns (t : Target) : Serving Answer := do
  let history ← findHistory
  let limit ← fitting (limitOf t)
  let runs := (history.map fun h => h.list limit).getD []
  return .ok (.list (runs.map RunRecord.toValue))

/-- Shows a run. -/
def showRun (id : String) : Serving Answer := do
  match (← findHistory).bind fun h => h.find? id with
  | some r => return .ok r.toValue
  | none => return .detail 404 "Execution not found"

/-! ## Requests -/

/-- Serves a request for a route. -/
def serveRoute (host : Host) (r : Request) : Route → Serving Answer
  | .execute => execute host r.content
  | .validate => validate r.content
  | .executions => listRuns r.target
  | .execution id => showRun id
  | .health => return .ok (.object [("status", .text "ok"), ("version", .text version)])

/-- Serves a request. -/
def serve (host : Host) (r : Request) : Serving Answer :=
  match Route.find? r.target.path with
  | none => return .detail 404 "Not Found"
  | some route =>
    if r.method = route.method then serveRoute host r route
    else return .detail 405 "Method Not Allowed"

/-- The answer to a request, and the service after it. -/
def answer (host : Host) (s : Service) (r : Request) : Answer × Service :=
  match (serve host r).run s with
  | (.ok a, s) => (a.sentFor r.method, s)
  | (.error a, s) => (a.sentFor r.method, s)

end Service

end Workgraph
