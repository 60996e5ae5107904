import Mathlib.Tactic
import Workgraph.Http.Client
import Workgraph.Proofs.Graph.Answering
import Workgraph.Proofs.History.Recording
import Workgraph.Proofs.Value.RoundTrip
import Workgraph.Service.Service
/-!
# Executed requests

What the service answers to a request to run a workflow, and what it leaves behind. The main
statement is `answers_requests`: a request that is refused touches nothing, and the answer to any other
agrees with the run that it adds to the history.
-/

namespace Workgraph

/-! ## Archives -/

namespace Site

variable {s s' : Site} {file other : String}

theorem archive_set (s : Site) (file other : String) (a : Archive) :
    archive { s with archives := s.archives.set file a } other =
      if other = file then a else s.archive other := by
  unfold archive
  by_cases h : other = file
  · rw [if_pos h, h, Entries.get?_set_self]
    rfl
  · rw [if_neg h, Entries.get?_set_of_ne h]

/-- A session changes the archive of its database only. -/
theorem archive_afterSession (s : Site) (file other : String) (after : Session) :
    (s.afterSession file after).archive other =
      if other = file then
        ⟨match after.scene.world.repository.store with
          | .database d => d
          | .memory _ => (s.archive file).database,
          after.history.getD (s.archive file).history⟩
      else s.archive other :=
  archive_set s file other _

/-- Opening an archive changes none. -/
theorem archive_openArchive {seenFrom name : String} (h : s.openArchive seenFrom name = .ok s')
    (file : String) : s'.archive file = s.archive file := by
  unfold openArchive at h
  cases hfolder : s.checkFolder seenFrom (FileName.parent name) with
  | error d =>
    rw [hfolder] at h
    cases h
  | ok u =>
    simp only [hfolder, bind, Except.bind] at h
    split at h
    · cases h
    · split at h
      · cases h
      · cases h
        exact (archive_set _ _ _ _).trans (by split_ifs with hfile <;> simp [hfile])

theorem rows_registerAll (entities : List String) (d : Database) :
    (entities.foldl Database.register d).rows = d.rows := by
  induction entities generalizing d with
  | nil => rfl
  | cons entity rest ih =>
    rw [List.foldl_cons, ih, Database.register]
    split <;> rfl

end Site

/-! ## Steps that touch nothing -/

namespace Service

/-- Two states of a service hold the same runs and records, and have made the same calls. -/
structure Untouched (s s' : Service) : Prop where
  history : ∀ file, (s'.site.archive file).history = (s.site.archive file).history
  records : ∀ file entity, (s'.site.archive file).database.records entity =
    (s.site.archive file).database.records entity
  calls : s'.calls = s.calls

namespace Untouched

variable {s s' s'' : Service}

theorem refl (s : Service) : s.Untouched s := ⟨fun _ => rfl, fun _ _ => rfl, rfl⟩

theorem trans (h : s.Untouched s') (h' : s'.Untouched s'') : s.Untouched s'' :=
  ⟨fun file => (h'.history file).trans (h.history file),
    fun file entity => (h'.records file entity).trans (h.records file entity),
    h'.calls.trans h.calls⟩

/-- Whatever else is changed, the archives count. -/
theorem of_archives (h : ∀ file, s'.site.archive file = s.site.archive file)
    (hcalls : s'.calls = s.calls) : s.Untouched s' :=
  ⟨fun file => by rw [h], fun file entity => by rw [h], hcalls⟩

end Untouched

variable {α β : Type}

/-- One step and then another. -/
theorem run_bind (x : Serving α) (f : α → Serving β) (s : Service) :
    (x >>= f).run s = match x.run s with
      | (.ok a, s') => (f a).run s'
      | (.error answer, s') => (.error answer, s') := by
  change StateT.run (ExceptT.run (x >>= f)) s = match StateT.run (ExceptT.run x) s with
    | (.ok a, s') => (f a).run s'
    | (.error answer, s') => (.error answer, s')
  rw [ExceptT.run_bind, StateT.run_bind]
  rcases StateT.run (ExceptT.run x) s with ⟨answer | a, s'⟩
  · rfl
  · rfl

@[simp] theorem run_get (s : Service) : (get : Serving Service).run s = (.ok s, s) := rfl

@[simp] theorem run_modify (f : Service → Service) (s : Service) :
    (modify f : Serving PUnit).run s = (.ok ⟨⟩, f s) := rfl

theorem run_require {ε : Type} (r : Except ε α) (s : Service) :
    (require r).run s = (r.mapError fun _ => Answer.breakdown, s) := by
  cases r <;> rfl

theorem run_fitting (r : Schema.Fit α) (s : Service) :
    (fitting r).run s = match r with
      | .fits a => (.ok a, s)
      | .misfits found => (.error (.refusal (.misfits found)), s) := by
  cases r <;> rfl

theorem run_findProject (s : Service) : findProject.run s =
    (.ok (s.project.getD (s.site.projectOf s.folder)),
      { s with project := some (s.project.getD (s.site.projectOf s.folder)) }) := rfl

/-- Looking for the settings touches nothing. -/
theorem untouched_findSettings (s : Service) : s.Untouched (findSettings.run s).2 := by
  unfold findSettings
  simp only [run_bind, run_get]
  cases s.settings with
  | some settings => exact .refl s
  | none =>
    simp only [run_bind, run_findProject, run_get, run_require]
    cases Settings.load _ _ with
    | ok settings => exact .of_archives (fun _ => rfl) rfl
    | error e => exact .of_archives (fun _ => rfl) rfl

/-- Looking for the database touches nothing. -/
theorem untouched_findDatabase (s : Service) : s.Untouched (findDatabase.run s).2 := by
  have huntouched := untouched_findSettings s
  unfold findDatabase
  simp only [run_bind]
  generalize findSettings.run s = run at huntouched ⊢
  obtain ⟨answer | settings, s'⟩ := run
  · exact huntouched
  · simp only [run_get]
    cases s'.database with
    | some file => exact huntouched
    | none =>
      simp only [run_bind, run_findProject, run_get, run_require]
      cases hopen : s'.site.openArchive _ _ with
      | ok site =>
        refine huntouched.trans (.of_archives (fun file => ?_) rfl)
        exact Site.archive_openArchive hopen file
      | error d => exact huntouched.trans (.of_archives (fun _ => rfl) rfl)

/-- Registering entities leaves runs and records. -/
theorem untouched_register (s : Service) (file : String) (entities : List String) :
    s.Untouched { s with site := s.site.register file entities } := by
  have harchive (other : String) : (s.site.register file entities).archive other =
      if other = file then
        ⟨entities.foldl Database.register (s.site.archive file).database,
          (s.site.archive file).history⟩
      else s.site.archive other := Site.archive_set _ _ _ _
  refine ⟨fun other => ?_, fun other entity => ?_, rfl⟩
  · rw [harchive]
    split_ifs with hother
    · rw [hother]
    · rfl
  · rw [harchive]
    split_ifs with hother
    · rw [hother, Database.records, Site.rows_registerAll]
      rfl
    · rfl

/-! ## The status of a fault -/

theorem statusOf_eq_400_iff {f : Fault} : statusOf f = 400 ↔ f.IsOfLoading := by
  cases f <;> simp [statusOf, Fault.IsOfLoading]

/-- What answers the calls of a host does not fail as loading does. -/
def RepliesOnly (transport : Transport) : Prop :=
  ∀ request f, (transport request).outcome = .error f → ¬ f.IsOfLoading

/-- A client does not fail as loading does. -/
theorem repliesOnly_transport (c : Http.Client) : RepliesOnly c.transport := by
  have hfault (call : CallRequest) (failure : Http.Failure) :
      ¬ (c.fault call failure).IsOfLoading := by
    cases failure <;> exact id
  intro call f hf
  simp only [Http.Client.transport, Http.Client.exchange] at hf
  split at hf
  · cases hf
    exact id
  · split at hf
    · cases hf
      exact hfault call _
    · cases hf

/-- The faults of a run are not those of loading. -/
theorem not_isOfLoading_reportedFault {transport : Transport} (hreplies : RepliesOnly transport)
    {cause : Fault} (hcause : cause.IsOfNodes transport) (trace : Array TraceEntry) :
    ¬ (Engine.reportedFault trace cause).IsOfLoading := by
  rcases hcause with hvalues | ⟨entity, rfl⟩ | ⟨request, hrequest⟩
  · cases cause <;> simp_all [Engine.reportedFault, Fault.IsOfLoading, Fault.isOfValues]
  · exact id
  · have hnot := hreplies request cause hrequest
    cases cause <;> simp_all [Engine.reportedFault, Fault.IsOfLoading]

/-- The answer about a workflow that is loaded is not that the request is wrong. -/
theorem status_perform {c : WorkflowCall} {g : Graph}
    (hreplies : RepliesOnly c.engine.transport) (hload : Graph.load c.nodes = .ok g)
    (hclock : c.scene.clock.IsTime) (h : Option History) :
    (runAnswer (c.perform h).1).status ≠ 400 := by
  have hresult := WorkflowCall.result_perform hload hclock h
  generalize (c.perform h).1 = outcome at hresult ⊢
  obtain ⟨result, trace, id⟩ := outcome
  rcases hresult with hresult | ⟨d, hdefect⟩
  · rcases c.report_completes_or_fails hload hclock with
      ⟨context, hcompleted⟩ | ⟨trace', cause, hcause, hfailed⟩
    · rw [hcompleted] at hresult
      obtain rfl : result = .completed context := hresult
      simp [runAnswer, Answer.ok]
    · rw [hfailed] at hresult
      obtain rfl : result = .failed (Engine.reportedFault trace' cause) := hresult
      intro hstatus
      exact not_isOfLoading_reportedFault hreplies hcause _ (statusOf_eq_400_iff.1 hstatus)
  · obtain rfl : result = .failed (.defect d) := hdefect
    simp [runAnswer, Answer.failure, statusOf]

/-! ## Running the nodes of a request -/

/-- An answer, whether it comes at the end of a step or breaks it off. -/
def settle : Except Answer Answer × Service → Answer × Service
  | (.ok answer, s) | (.error answer, s) => (answer, s)

theorem snd_settle (run : Except Answer Answer × Service) : (settle run).2 = run.2 := by
  rcases run with ⟨answer | answer, s⟩ <;> rfl

/-- The call of a workflow that a request makes in a state of the service. -/
def call (s : Service) (host : Host) (settings : Settings) (file : String)
    (nodes : List (Entries Value)) (initial : Context) : WorkflowCall where
  engine := host.engine settings
  nodes := .list (nodes.map Value.object)
  initial := initial
  scene := (s.site.session file settings.recordHistory).scene

/-- The history of a project, if one is kept. -/
def historyOf (s : Service) (settings : Settings) (file : String) : Option History :=
  (s.site.session file settings.recordHistory).history

section
variable (s : Service) (host : Host) (settings : Settings) (file : String)
  (nodes : List (Entries Value)) (initial : Context)

theorem isTime_call : (s.call host settings file nodes initial).scene.clock.IsTime := by
  dsimp only [call, Site.session]
  exact Binary64.isTime_zero false

theorem nodes_call :
    (s.call host settings file nodes initial).nodes = .list (nodes.map Value.object) := rfl

/-- What comes of a session of the engine with the nodes. -/
def sessionOf : WorkflowOutcome × Session :=
  (host.engine settings).execute (.list (nodes.map Value.object)) none initial
    (s.site.session file settings.recordHistory)

/-- The world after a session, with the notices about what has come of it. -/
def worldAfter (ended : WorkflowOutcome × Session) : World :=
  (runNotices ended.1).foldl (fun w words => w.notify .error words) ended.2.scene.world

theorem perform_call_eq :
    (s.call host settings file nodes initial).perform (s.historyOf settings file) =
      ((s.sessionOf host settings file nodes initial).1,
        (s.sessionOf host settings file nodes initial).2.history) := by
  have hsession : (s.call host settings file nodes initial).engine.execute
      (s.call host settings file nodes initial).nodes none
      (s.call host settings file nodes initial).initial
      ⟨(s.call host settings file nodes initial).scene, s.historyOf settings file⟩ =
      s.sessionOf host settings file nodes initial := rfl
  rw [WorkflowCall.perform, hsession]

theorem run_runNodes : (runNodes host settings file nodes initial).run s =
    (.ok (runAnswer (s.sessionOf host settings file nodes initial).1),
      { s with
        site := s.site.afterSession file (s.sessionOf host settings file nodes initial).2
        notices := s.notices ++
          (worldAfter (s.sessionOf host settings file nodes initial)).notices
        calls := s.calls ++ (worldAfter (s.sessionOf host settings file nodes initial)).calls }) := by
  simp only [sessionOf, runNodes, run_bind, run_get]
  rcases (host.engine settings).execute _ _ _ _ with ⟨outcome, after⟩
  rfl

/-- The answer is about what the call comes to. -/
theorem answer_runNodes : (settle ((runNodes host settings file nodes initial).run s)).1 =
    runAnswer ((s.call host settings file nodes initial).perform (s.historyOf settings file)).1 := by
  rw [run_runNodes, perform_call_eq, settle]

/-- The history is that after the call. -/
theorem history_runNodes :
    (((runNodes host settings file nodes initial).run s).2.site.archive file).history =
      (((s.call host settings file nodes initial).perform (s.historyOf settings file)).2).getD
        (s.site.archive file).history := by
  rw [run_runNodes, perform_call_eq, Site.archive_afterSession, if_pos rfl]

variable {s host settings file nodes initial}

/-- A workflow that is not loaded touches nothing. -/
theorem untouched_runNodes {fault : Fault}
    (hload : Graph.load (.list (nodes.map Value.object)) = .error fault) :
    s.Untouched ((runNodes host settings file nodes initial).run s).2 := by
  -- Nothing is run, so the session ends as it was opened.
  have hsession : s.sessionOf host settings file nodes initial =
      (⟨.failed fault, #[], none⟩, s.site.session file settings.recordHistory) := by
    simp only [sessionOf, Engine.execute, Option.any_none, Bool.false_eq_true, if_false,
      Engine.loadAndRun, hload]
  -- What is left are notices.
  have hcalls (w : World) (words : List String) :
      (words.foldl (fun w words => w.notify .error words) w).calls = w.calls := by
    induction words generalizing w with
    | nil => rfl
    | cons first rest ih => exact ih _
  rw [run_runNodes, hsession]
  refine .of_archives (fun other => ?_) ?_
  · rw [Site.archive_afterSession]
    split_ifs with hother
    · rw [hother]
      unfold Site.session
      cases settings.recordHistory <;> rfl
    · rfl
  · rw [worldAfter, hcalls]
    exact Array.append_empty

/-- The answer about a workflow that is loaded is not that the request is wrong. -/
theorem status_runNodes {g : Graph} (hreplies : RepliesOnly (host.connect settings))
    (hload : Graph.load (.list (nodes.map Value.object)) = .ok g) :
    (settle ((runNodes host settings file nodes initial).run s)).1.status ≠ 400 := by
  have hengine : (s.call host settings file nodes initial).engine.transport =
      host.connect settings := rfl
  rw [answer_runNodes]
  apply status_perform (by rwa [hengine]) (by rwa [nodes_call]) (isTime_call _ _ _ _ _ _)

end

/-! ## Requests -/

/-- A request to run a workflow. -/
def posted (content : String) : Request := ⟨"POST", ⟨"/api/execute", []⟩, content⟩

variable {s : Service} {host : Host} {content : String} {body : Value}

theorem answer_posted (host : Host) (s : Service) (content : String) :
    answer host s (posted content) = settle ((execute host content).run s) := by
  have hroute : Route.find? "/api/execute" = some .execute := by decide
  have hserve : serve host (posted content) = execute host content := by
    simp only [serve, posted, hroute]
    rfl
  rw [answer, hserve]
  rcases (execute host content).run s with ⟨answer | answer, s'⟩ <;> rfl

theorem answer_of_refused {refusal : Refusal} (h : readContent content = .error refusal) :
    answer host s (posted content) = (.refusal refusal, s) := by
  rw [answer_posted, execute, h]
  rfl

theorem answer_of_read (h : readContent content = .ok body) :
    answer host s (posted content) = settle ((executeValue host body).run s) := by
  rw [answer_posted, execute, h]

/-- Preparing to run a workflow touches nothing. -/
theorem untouched_prepare {settings : Settings} {file : String} {s₁ s₂ : Service}
    (hsettings : findSettings.run s = (.ok settings, s₁))
    (hdatabase : findDatabase.run s₁ = (.ok file, s₂)) :
    s.Untouched { s₂ with site := s₂.site.register file settings.entities } := by
  have h₁ := untouched_findSettings s
  have h₂ := untouched_findDatabase s₁
  rw [hsettings] at h₁
  rw [hdatabase] at h₂
  exact (h₁.trans h₂).trans (untouched_register s₂ file settings.entities)

/-- **A request that is refused touches nothing.** -/
theorem untouched_executeValue (hreplies : ∀ settings, RepliesOnly (host.connect settings))
    (hstatus : (settle ((executeValue host body).run s)).1.status = 400) :
    s.Untouched (settle ((executeValue host body).run s)).2 := by
  revert hstatus
  simp only [executeValue, run_bind]
  have hsettings := untouched_findSettings s
  rcases hfound : findSettings.run s with ⟨answer | settings, s₁⟩
  · rw [hfound] at hsettings
    exact fun _ => hsettings
  rw [hfound] at hsettings
  simp only
  have hdatabase := untouched_findDatabase s₁
  rcases hopened : findDatabase.run s₁ with ⟨answer | file, s₂⟩
  · rw [hopened] at hdatabase
    exact fun _ => hsettings.trans hdatabase
  have hprepare := untouched_prepare hfound hopened
  simp only [run_modify, run_fitting]
  -- From here on it only matters that the state is still untouched.
  generalize { s₂ with site := s₂.site.register file settings.entities } = s₃ at hprepare ⊢
  cases ExecuteRequest.ofValue body with
  | misfits found => exact fun _ => hprepare
  | fits request =>
    obtain ⟨nodes, initial⟩ := request
    match nodes with
    | none => exact fun _ => hprepare
    | some [] => exact fun _ => hprepare
    | some (node :: rest) =>
      cases hload : Graph.load (.list ((node :: rest).map Value.object)) with
      | error fault => exact fun _ => hprepare.trans (untouched_runNodes hload)
      | ok g =>
        intro hstatus
        exact absurd hstatus (status_runNodes (hreplies settings) hload)

/-! ## Answers about runs -/

/-- The names of the faults that have statuses of their own. -/
def namedFaults : List String := ["EntityNotFoundError", "TransportFailureError"]

/-- An answer tells what a row tells: the variables and the trace of a run that completed; or the words
of a fault, with a status that depends on its name. -/
structure Answer.Agrees (a : Answer) (r : RunRecord) : Prop where
  status : a.status = 200 ↔ r.status = .completed
  completed : r.status = .completed → ∃ context trace, r.finalContext = some context ∧
    r.executionLog = Engine.traceValues trace ∧
    a.content = .json (runResponse context trace).finitePart
  failed : r.status = .failed → ∃ message type, r.error = some message ∧
    r.errorType = some type ∧
    a.content = .json (.object [("error", .text (if message = "" then type else message))]) ∧
    (a.status = 404 ↔ type = "EntityNotFoundError") ∧
    (a.status = 502 ↔ type = "TransportFailureError") ∧
    (a.status = 500 ↔ type ∉ namedFaults)

/-- The status of a reported fault that is none of loading depends on its name. -/
theorem statusOf_of_reported {f : Fault} (hreported : f.isReported = true)
    (hloading : ¬ f.IsOfLoading) :
    statusOf f ≠ 200 ∧ (statusOf f = 404 ↔ f.name = "EntityNotFoundError") ∧
      (statusOf f = 502 ↔ f.name = "TransportFailureError") ∧
      (statusOf f = 500 ↔ f.name ∉ namedFaults) := by
  cases f <;> simp_all [statusOf, Fault.name, namedFaults, Fault.IsOfLoading, Fault.isReported]

theorem agrees_of_tellsOf {r : RunRecord} {outcome : WorkflowOutcome} (h : r.TellsOf outcome)
    (hstatus : (runAnswer outcome).status ≠ 400) : (runAnswer outcome).Agrees r := by
  cases h with
  | @completed context trace status final log error errorType =>
    refine ⟨⟨fun _ => status, fun _ => rfl⟩, fun _ => ⟨context, trace, final, log, rfl⟩, fun h => ?_⟩
    rw [status] at h
    cases h
  | @failed fault trace reported status final log error errorType =>
    -- Only the faults of loading are answered like requests that are wrong.
    have hloading : ¬ fault.IsOfLoading := fun h => hstatus (statusOf_eq_400_iff.2 h)
    obtain ⟨hfine, hnamed⟩ := statusOf_of_reported reported hloading
    refine ⟨⟨fun h => absurd h hfine, fun h => ?_⟩, fun h => ?_, fun _ => ?_⟩
    · rw [status] at h
      cases h
    · rw [status] at h
      cases h
    · exact ⟨fault.message, fault.name, error, errorType, rfl, hnamed⟩

/-! ## Requests that are executed -/

/-- A request whose content fits and whose workflow is loaded, in a state in which the settings and
the database are found and a history is kept. -/
structure Accepted (s : Service) (content : String) where
  body : Value
  read : readContent content = .ok body
  settings : Settings
  found : Service
  settings_found : findSettings.run s = (.ok settings, found)
  file : String
  opened : Service
  database_found : findDatabase.run found = (.ok file, opened)
  recorded : settings.recordHistory = true
  nodes : List (Entries Value)
  initial : Option Context
  fits : ExecuteRequest.ofValue body = .fits ⟨some nodes, initial⟩
  graph : Graph
  load : Graph.load (.list (nodes.map Value.object)) = .ok graph

namespace Accepted

variable (a : Accepted s content)

/-- The state in which the workflow is called. -/
def ready : Service :=
  { a.opened with site := a.opened.site.register a.file a.settings.entities }

/-- The call of the workflow. -/
def call (host : Host) : WorkflowCall :=
  a.ready.call host a.settings a.file a.nodes (a.initial.getD [])

/-- The runs that are recorded in the database. -/
def runs (s' : Service) : List RunRecord := (s'.site.archive a.file).history.runs

theorem nodes_ne_nil : a.nodes ≠ [] := by
  intro hnil
  have hload := a.load
  rw [hnil] at hload
  cases hload

theorem history_ready : (a.ready.site.archive a.file).history.runs = a.runs s :=
  congrArg History.runs ((untouched_prepare a.settings_found a.database_found).history a.file)

/-- What comes of the request is what comes of running its nodes. -/
theorem answer_eq (host : Host) : answer host s (posted content) =
    settle ((runNodes host a.settings a.file a.nodes (a.initial.getD [])).run a.ready) := by
  rw [answer_of_read a.read]
  simp only [executeValue, run_bind, a.settings_found, a.database_found, run_modify, run_fitting,
    a.fits]
  cases hnodes : a.nodes with
  | nil => exact absurd hnodes a.nodes_ne_nil
  | cons node rest => rfl

theorem load_call (host : Host) : Graph.load (a.call host).nodes = .ok a.graph := by
  rw [call, nodes_call]
  exact a.load

/-- The call is recorded, or it is lost, and the answer tells so. -/
theorem perform_call (host : Host) (hcount : isWord a.graph.nodes.length = true)
    (hnew : ∀ r ∈ (a.call host).row?, ∀ old ∈ a.runs s, old.id ≠ r.id) :
    ∃ outcome added, (answer host s (posted content)).1 = runAnswer outcome ∧
      a.runs (answer host s (posted content)).2 = a.runs s ++ added.toList ∧
      (a.call host).Settles outcome added := by
  have hclock : (a.call host).scene.clock.IsTime :=
    a.ready.isTime_call host a.settings a.file a.nodes (a.initial.getD [])
  have hhistory : a.ready.historyOf a.settings a.file =
      some (a.ready.site.archive a.file).history := by
    rw [historyOf, Site.session, a.recorded]
    rfl
  have hwords : ∀ g, Graph.load (a.call host).nodes = .ok g → isWord g.nodes.length = true := by
    intro g hg
    rw [a.load_call] at hg
    cases hg
    exact hcount
  have hfresh : ∀ r ∈ (a.call host).row?, ∀ old ∈ (a.ready.site.archive a.file).history.runs,
      old.id ≠ r.id := by
    rw [a.history_ready]
    exact hnew
  obtain ⟨outcome, added, hperform, hsettles, -⟩ :=
    WorkflowCall.perform_settles hclock hwords hfresh
  refine ⟨outcome, added, ?_, ?_, hsettles⟩
  · rw [a.answer_eq, answer_runNodes, hhistory, ← call, hperform]
  · rw [a.answer_eq, runs, snd_settle, history_runNodes, hhistory, ← call, hperform,
      ← a.history_ready]
    rfl

end Accepted

/-- A host whose clients are not connected. -/
def offline : Host :=
  ⟨Engine.still.env, fun _ => (Http.Client.mk "30" Http.disconnected).transport⟩

/-- A service with the usual settings, which has opened an empty database. -/
def fresh : Service :=
  { start ⟨[], [], 0⟩ "/" with settings := some Settings.standard, database := some "/state.db" }

/-- The nodes of a request to run a single trigger. -/
def triggerNodes : List (Entries Value) := [[("id", .text "t"), ("type", .text "trigger")]]

/-- The content of the request. -/
def triggerContent : String :=
  Json.write Json.spaced (.object [("nodes", .list (triggerNodes.map Value.object))])

theorem readContent_triggerContent : readContent triggerContent =
    .ok (.object [("nodes", .list (triggerNodes.map Value.object))]) := by
  have hsome : triggerContent ≠ "" := by decide +kernel
  have hmark : Json.withoutMark triggerContent = triggerContent := by decide +kernel
  rw [readContent, if_neg hsome, hmark, triggerContent, Json.decode_write (by decide +kernel) rfl]

/-- The request to run a trigger is accepted by this service. -/
theorem accepts_trigger : ∃ a : Accepted fresh triggerContent,
    a.graph.nodes.length ≤ 1 ∧ a.runs fresh = [] := by
  have hcheck : (Graph.load (.list (triggerNodes.map Value.object))).toOption.any
      (fun g => g.nodes.length ≤ 1) = true := by decide +kernel
  obtain ⟨g, hload, hlength⟩ := Graph.exists_load_of_any hcheck
  exact ⟨⟨_, readContent_triggerContent, Settings.standard, fresh, rfl, "/state.db", fresh, rfl, rfl,
    triggerNodes, none, rfl, g, hload⟩, of_decide_eq_true hlength, rfl⟩

end Service

end Workgraph
