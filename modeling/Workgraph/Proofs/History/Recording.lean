import Mathlib.Tactic
import Workgraph.History.Schema
import Workgraph.Proofs.Calendar.TextOrder
import Workgraph.Proofs.Engine.Lookup
import Workgraph.Proofs.Number.DigitText
/-!
# Recorded workflows

Workflows are called one after another, and all of them are recorded in one history. A call whose
workflow is loaded comes to a result or to a reported fault and adds one row that tells of it, unless
the run holds an integer that cannot be written; then the call fails with that defect and adds no row.
Other calls add none. While the clock does not go back, the rows are listed latest call first
(`WorkflowCall.rows_of_calls`).
-/

namespace Workgraph

theorem isWord_of_lt {n : Nat} (h : n < 9223372036854775808) : isWord n = true := by
  have hhalf : wordHalf = 9223372036854775808 := by norm_num [wordHalf]
  simp only [isWord, hhalf, Bool.and_eq_true, decide_eq_true_eq]
  omega

/-! ## Listing -/

namespace History

variable {h : History}

/-- Runs that were recorded in the order of their starts are listed the other way round. -/
theorem latestFirst_eq_reverse
    (horder : h.runs.Pairwise fun a b => ¬ b.startedAt.isoText < a.startedAt.isoText) :
    h.latestFirst = h.runs.reverse := by
  apply List.mergeSort_of_pairwise
  rw [List.pairwise_reverse]
  exact horder.imp fun hab => by rw [listedBefore, decide_eq_false hab, Bool.not_false]

/-- A limit that is not below the number of runs lets all of them be listed. -/
theorem listUpTo_eq_latestFirst {limit : Int} (hword : isWord limit = true)
    (hlimit : (h.runs.length : Int) ≤ limit) : h.listUpTo limit = .ok h.latestFirst := by
  have hlength : h.latestFirst.length ≤ limit.toNat := by
    rw [latestFirst, List.length_mergeSort, List.length_reverse]
    omega
  rw [listUpTo, if_pos hword, list, if_neg (by omega), List.take_of_length_le hlength]

/-- Runs in the order of their starts: moments in universal time, of which none is before an earlier
one. -/
def InOrder (starts : List Calendar.Moment) : Prop :=
  (∀ m ∈ starts, m.IsUniversal) ∧ starts.Pairwise fun a b => a.clock ≤ b.clock

theorem InOrder.sublist {starts starts' : List Calendar.Moment} (h : InOrder starts)
    (hsub : starts'.Sublist starts) : InOrder starts' :=
  ⟨fun m hm => h.1 m (hsub.subset hm), h.2.sublist hsub⟩

/-- **The history lists the latest run first** if the runs were recorded in the order of their
starts. -/
theorem listUpTo_of_inOrder (horder : InOrder (h.runs.map RunRecord.startedAt)) {limit : Int}
    (hword : isWord limit = true) (hlimit : (h.runs.length : Int) ≤ limit) :
    h.listUpTo limit = .ok h.runs.reverse := by
  rw [listUpTo_eq_latestFirst hword hlimit, latestFirst_eq_reverse]
  obtain ⟨huniversal, hpairwise⟩ := horder
  rw [List.pairwise_map] at hpairwise
  refine hpairwise.imp_of_mem fun ha hb hab => ?_
  exact Calendar.Moment.not_isoText_lt (huniversal _ (List.mem_map_of_mem ha))
    (huniversal _ (List.mem_map_of_mem hb)) hab

end History

/-! ## Calls -/

/-- A call of a workflow: the engine, the nodes and the variables with which it starts, and the scene
in which it happens. -/
structure WorkflowCall where
  engine : Engine
  nodes : Value
  initial : Context
  scene : Scene

namespace WorkflowCall

/-- What a call comes to, and the history after it. -/
def perform (c : WorkflowCall) (h : Option History) : WorkflowOutcome × Option History :=
  let (outcome, after) := c.engine.execute c.nodes none c.initial ⟨c.scene, h⟩
  (outcome, after.history)

/-- What calls come to one after another, and the history after all of them. -/
def performAll : List WorkflowCall → Option History → List WorkflowOutcome × Option History
  | [], h => ([], h)
  | c :: rest, h =>
    let (outcome, h) := c.perform h
    let (outcomes, h) := performAll rest h
    (outcome :: outcomes, h)

/-- The run of a workflow that has been loaded. -/
def report (c : WorkflowCall) (g : Graph) : RunReport :=
  c.engine.run g none c.initial
    { c.scene with
      world := g.warnings.foldl (fun w words => w.notify .warning words) c.scene.world }

/-- The row that tells of a run. -/
def rowOf (c : WorkflowCall) (g : Graph) (report : RunReport) : RunRecord :=
  c.engine.recordOf (c.engine.env.runId (report.world.repository.drawn + 1)) g.nodes.length
    c.initial report.world.trace report.result.final? report.result.fault?

/-- The row that tells of the run of a workflow that has been loaded. -/
def row (c : WorkflowCall) (g : Graph) : RunRecord := c.rowOf g (c.report g)

/-- The row that a call is to add: none if its workflow is not loaded. -/
def row? (c : WorkflowCall) : Option RunRecord := (Graph.load c.nodes).toOption.map c.row

end WorkflowCall

/-- A row tells of what a run came to: the variables and the trace of one that completed, which is
known by the id of the row; or the name, the words and the trace of a reported fault. -/
inductive RunRecord.TellsOf (r : RunRecord) : WorkflowOutcome → Prop
  | completed {context : Context} {trace : Array TraceEntry} (status : r.status = .completed)
      (final : r.finalContext = some context) (log : r.executionLog = Engine.traceValues trace)
      (error : r.error = none) (errorType : r.errorType = none) :
      TellsOf r ⟨.completed context, trace, some r.id⟩
  | failed {fault : Fault} {trace : Array TraceEntry} (reported : fault.isReported = true)
      (status : r.status = .failed) (final : r.finalContext = none)
      (log : r.executionLog = Engine.traceValues trace) (error : r.error = some fault.message)
      (errorType : r.errorType = some fault.name) : TellsOf r ⟨.failed fault, trace, none⟩

namespace WorkflowCall

/-- The run of a call starts or ends with an integer that cannot be written. -/
def Overflows (c : WorkflowCall) (g : Graph) : Prop :=
  Value.anyLongField c.initial = true ∨
    ∃ context, (c.report g).result = .completed context ∧ Value.anyLongField context = true

/-- What a call comes to, and the row that it adds: none if the workflow is not loaded, or if the run
cannot be written. -/
inductive Settles (c : WorkflowCall) : WorkflowOutcome → Option RunRecord → Prop
  | unloaded {fault : Fault} (load : Graph.load c.nodes = .error fault) :
      Settles c ⟨.failed fault, #[], none⟩ none
  | recorded {g : Graph} {r : RunRecord} {outcome : WorkflowOutcome}
      (load : Graph.load c.nodes = .ok g) (written : ¬ c.Overflows g)
      (initial : r.initialContext = c.initial) (tells : r.TellsOf outcome) :
      Settles c outcome (some r)
  | lost {g : Graph} (load : Graph.load c.nodes = .ok g) (overflows : c.Overflows g) :
      Settles c ⟨.failed (.defect .longInteger), #[], none⟩ none

variable {c : WorkflowCall} {g : Graph} {h : History}

/-! ## One call -/

/-- The integers of a row are those of its variables: a trace has none. -/
theorem hasLongInteger_rowOf {report : RunReport} : (c.rowOf g report).hasLongInteger = true ↔
    Value.anyLongField c.initial = true ∨
      ∃ context, report.result = .completed context ∧ Value.anyLongField context = true := by
  have htrace : (Engine.traceValues report.world.trace).any Value.anyLongField = false := by
    rw [List.any_eq_false]
    intro fields hfields
    obtain ⟨entry, -, rfl⟩ := List.mem_map.1 hfields
    simp [Value.anyLongField, Value.hasLongInteger]
  rw [RunRecord.hasLongInteger]
  simp only [rowOf, Engine.recordOf, htrace, Bool.or_false, Bool.or_eq_true]
  cases report.result with
  | completed context => simp [RunResult.final?]
  | failed f => simp [RunResult.final?]
  | timedOut => simp [RunResult.final?]

/-- What a run comes to, if its row is written under an id. -/
def outcomeOf (id : Option String) (report : RunReport) : WorkflowOutcome :=
  match report.result with
  | .completed context => ⟨.completed context, report.world.trace, id⟩
  | .failed fault => ⟨.failed fault, report.world.trace, none⟩
  | .timedOut => ⟨.timedOut, report.world.trace, none⟩

/-- A run has completed, or it has failed with a fault that the engine reports. -/
def Reported (report : RunReport) : Prop :=
  (∃ context, report.result = .completed context) ∨
    ∃ fault, fault.isReported = true ∧ report.result = .failed fault

/-- The run of a call completes, or it fails with a fault of nodes, as the engine reports it. -/
theorem report_completes_or_fails (hload : Graph.load c.nodes = .ok g)
    (hclock : c.scene.clock.IsTime) :
    (∃ context, (c.report g).result = .completed context) ∨
      ∃ trace cause, cause.IsOfNodes c.engine.transport ∧
        (c.report g).result = .failed (Engine.reportedFault trace cause) := by
  rcases Engine.run_completes_or_fails hload c.engine c.initial (s := { c.scene with
    world := g.warnings.foldl (fun w words => w.notify .warning words) c.scene.world }) hclock with
    hcompleted | ⟨cause, hcause, hfailed⟩
  · exact Or.inl hcompleted
  · exact Or.inr ⟨_, cause, hcause, hfailed⟩

theorem reported_report (hload : Graph.load c.nodes = .ok g) (hclock : c.scene.clock.IsTime) :
    Reported (c.report g) := by
  rcases c.report_completes_or_fails hload hclock with hcompleted | ⟨trace, cause, -, hfailed⟩
  · exact Or.inl hcompleted
  · exact Or.inr ⟨_, Engine.isReported_reportedFault _ _, hfailed⟩

/-- The row of a run tells of it. -/
theorem rowOf_tellsOf {report : RunReport} (h : Reported report) :
    (c.rowOf g report).TellsOf (outcomeOf (some (c.rowOf g report).id) report) := by
  obtain ⟨result, world, clock⟩ := report
  rcases h with ⟨context, hcompleted⟩ | ⟨fault, hreported, hfailed⟩
  · obtain rfl : result = .completed context := hcompleted
    exact .completed rfl rfl rfl rfl rfl
  · obtain rfl : result = .failed fault := hfailed
    exact .failed hreported rfl rfl rfl rfl rfl

theorem run_eq_report (c : WorkflowCall) (g : Graph) : c.engine.run g none c.initial
    { world := g.warnings.foldl (fun w words => w.notify .warning words) c.scene.world,
      clock := c.scene.clock } = c.report g := rfl

/-- A call whose workflow is not loaded. -/
theorem perform_unloaded {fault : Fault} (hload : Graph.load c.nodes = .error fault)
    (h : Option History) : c.perform h = (⟨.failed fault, #[], none⟩, h) := by
  simp [perform, Engine.execute, Engine.loadAndRun, hload]

/-- A call whose workflow is loaded records the row of its run, or fails with the defect of the
history. -/
theorem perform_loaded (hload : Graph.load c.nodes = .ok g) (hclock : c.scene.clock.IsTime) :
    c.perform (some h) =
      match h.insert (c.row g) with
      | .ok h' => (outcomeOf (some (c.row g).id) (c.report g), some h')
      | .error d => (⟨.failed (.defect d), #[], none⟩, some h) := by
  have hreported := reported_report hload hclock
  simp only [perform, Engine.execute, Option.any_none, Bool.false_eq_true, if_false,
    Engine.loadAndRun, hload, run_eq_report, row]
  -- From here on it does not matter how the run came about.
  generalize c.report g = report at hreported ⊢
  obtain ⟨result, world, clock⟩ := report
  rcases hreported with ⟨context, hcompleted⟩ | ⟨fault, -, hfailed⟩
  · obtain rfl : result = .completed context := hcompleted
    simp only [Engine.record, rowOf, RunResult.final?, RunResult.fault?]
    cases h.insert (c.engine.recordOf _ g.nodes.length c.initial world.trace (some context) none) with
    | ok h' => rfl
    | error d => rfl
  · obtain rfl : result = .failed fault := hfailed
    simp only [Engine.record, rowOf, RunResult.final?, RunResult.fault?]
    cases h.insert (c.engine.recordOf _ g.nodes.length c.initial world.trace none (some fault)) with
    | ok h' => rfl
    | error d => rfl

/-- Without a history a call comes to what its run comes to. -/
theorem perform_unrecorded (hload : Graph.load c.nodes = .ok g) (hclock : c.scene.clock.IsTime) :
    c.perform none = (outcomeOf none (c.report g), none) := by
  have hreported := reported_report hload hclock
  simp only [perform, Engine.execute, Option.any_none, Bool.false_eq_true, if_false,
    Engine.loadAndRun, hload, run_eq_report]
  generalize c.report g = report at hreported ⊢
  obtain ⟨result, world, clock⟩ := report
  rcases hreported with ⟨context, hcompleted⟩ | ⟨fault, -, hfailed⟩
  · obtain rfl : result = .completed context := hcompleted
    rfl
  · obtain rfl : result = .failed fault := hfailed
    rfl

theorem result_outcomeOf (id : Option String) (report : RunReport) :
    (outcomeOf id report).result = report.result := by
  obtain ⟨result, world, clock⟩ := report
  cases result <;> rfl

/-- A call whose workflow is loaded comes to what its run comes to, or fails with a defect of the
history. -/
theorem result_perform (hload : Graph.load c.nodes = .ok g) (hclock : c.scene.clock.IsTime)
    (h : Option History) : (c.perform h).1.result = (c.report g).result ∨
      ∃ d, (c.perform h).1.result = .failed (.defect d) := by
  cases h with
  | some h =>
    rw [perform_loaded hload hclock]
    cases h.insert (c.row g) with
    | ok h' => exact Or.inl (result_outcomeOf _ _)
    | error d => exact Or.inr ⟨d, rfl⟩
  | none =>
    rw [perform_unrecorded hload hclock]
    exact Or.inl (result_outcomeOf _ _)

/-- The row of a run under a new id is written, unless it holds an integer that cannot be. -/
theorem insert_eq {r : RunRecord} (hnew : ∀ old ∈ h.runs, old.id ≠ r.id)
    (hcount : isWord r.nodeCount = true) :
    h.insert r = if r.hasLongInteger then .error .longInteger else .ok ⟨h.runs ++ [r]⟩ := by
  have htaken : (h.runs.any fun old => decide (old.id = r.id)) = false := by
    rw [List.any_eq_false]
    intro old hold
    simpa using hnew old hold
  unfold History.insert
  rw [hcount, htaken]
  rfl

/-- **One call adds one row that tells of it**, unless its workflow is not loaded, or an integer of
the run cannot be written. -/
theorem perform_settles (hclock : c.scene.clock.IsTime)
    (hcount : ∀ g, Graph.load c.nodes = .ok g → isWord g.nodes.length = true)
    (hnew : ∀ r ∈ c.row?, ∀ old ∈ h.runs, old.id ≠ r.id) :
    ∃ outcome added, c.perform (some h) = (outcome, some ⟨h.runs ++ added.toList⟩) ∧
      c.Settles outcome added ∧ ∀ r ∈ added, c.row? = some r := by
  cases hload : Graph.load c.nodes with
  | error fault =>
    refine ⟨_, none, ?_, .unloaded hload, by simp⟩
    rw [perform_unloaded hload, Option.toList_none, List.append_nil]
  | ok g =>
    have hrow : c.row? = some (c.row g) := by
      rw [row?, hload]
      rfl
    have hinsert := insert_eq (hnew _ hrow) (show isWord (c.row g).nodeCount = true from hcount g hload)
    rw [perform_loaded hload hclock, hinsert]
    by_cases hlong : (c.row g).hasLongInteger = true
    · rw [if_pos hlong]
      refine ⟨_, none, ?_, .lost hload (hasLongInteger_rowOf.1 hlong), by simp⟩
      rw [Option.toList_none, List.append_nil]
    · rw [if_neg hlong]
      refine ⟨_, some (c.row g), rfl, .recorded hload ?_ rfl ?_, ?_⟩
      · exact fun hoverflows => hlong (hasLongInteger_rowOf.2 hoverflows)
      · exact rowOf_tellsOf (reported_report hload hclock)
      · intro r hr
        rwa [← Option.mem_some.1 hr]

/-! ## Many calls -/

/-- **Calls add their rows one after another**, and change none that is there. -/
theorem performAll_settles {calls : List WorkflowCall}
    (hclock : ∀ c ∈ calls, c.scene.clock.IsTime)
    (hcount : ∀ c ∈ calls, ∀ g, Graph.load c.nodes = .ok g → isWord g.nodes.length = true)
    (hids : ((h.runs ++ calls.filterMap row?).map RunRecord.id).Nodup) :
    ∃ results : List (WorkflowOutcome × Option RunRecord),
      performAll calls (some h) =
        (results.map Prod.fst, some ⟨h.runs ++ results.filterMap Prod.snd⟩) ∧
      List.Forall₂ (fun c r => c.Settles r.1 r.2) calls results ∧
      (results.filterMap Prod.snd).Sublist (calls.filterMap row?) := by
  induction calls generalizing h with
  | nil => exact ⟨[], by simp [performAll], .nil, .slnil⟩
  | cons c rest ih =>
    obtain ⟨hclock, hclocks⟩ := List.forall_mem_cons.1 hclock
    obtain ⟨hcount, hcounts⟩ := List.forall_mem_cons.1 hcount
    have hrows : (c :: rest).filterMap row? = c.row?.toList ++ rest.filterMap row? := by
      cases hrow : c.row? <;> simp [hrow]
    rw [hrows] at hids ⊢
    -- All ids are different, so that of the first row is new.
    have hnew : ∀ r ∈ c.row?, ∀ old ∈ h.runs, old.id ≠ r.id := by
      intro r hr old hold
      rw [List.map_append, List.nodup_append] at hids
      refine hids.2.2 _ (List.mem_map_of_mem hold) _ (List.mem_map_of_mem ?_)
      rw [Option.mem_def.1 hr]
      exact List.mem_append_left _ (List.mem_singleton_self r)
    obtain ⟨outcome, added, hperform, hsettles, hadded⟩ := perform_settles hclock hcount hnew
    -- A call adds its own row or none, and so leaves the ids of the rows to come new.
    have hsub : added.toList.Sublist c.row?.toList := by
      cases added with
      | none => exact List.nil_sublist _
      | some r => rw [hadded r rfl]
    have hrest : (((h.runs ++ added.toList) ++ rest.filterMap row?).map RunRecord.id).Nodup := by
      refine hids.sublist (List.Sublist.map _ ?_)
      rw [List.append_assoc]
      exact (hsub.append_right _).append_left _
    obtain ⟨results, hall, hforall, hsublist⟩ :=
      ih (h := ⟨h.runs ++ added.toList⟩) hclocks hcounts hrest
    have hrows' : ((outcome, added) :: results).filterMap Prod.snd =
        added.toList ++ results.filterMap Prod.snd := by
      cases added <;> rfl
    refine ⟨(outcome, added) :: results, ?_, .cons hsettles hforall, ?_⟩
    · simp only [performAll, hperform, hall, List.map_cons, hrows', List.append_assoc]
    · rw [hrows']
      exact hsub.append hsublist

/-- Rows are started when their calls are made. -/
theorem starts_sublist (calls : List WorkflowCall) :
    ((calls.filterMap row?).map RunRecord.startedAt).Sublist (calls.map (·.engine.env.now)) := by
  induction calls with
  | nil => exact .slnil
  | cons c rest ih =>
    cases hload : Graph.load c.nodes with
    | error fault =>
      rw [List.filterMap_cons_none (by rw [row?, hload]; rfl)]
      exact ih.cons _
    | ok g =>
      rw [List.filterMap_cons_some (b := c.row g) (by rw [row?, hload]; rfl)]
      exact ih.cons_cons _

/-- An engine at a moment, with ids of its own. -/
def clerk (moment : Nat) : Engine :=
  { Engine.still with env := ⟨⟨moment, some 0⟩, fun n => digitsText (10 * moment + n)⟩ }

/-- Calls of no workflow, of one that fails since an entity is missing, and of one that completes. -/
def clerkCalls : List WorkflowCall :=
  [⟨clerk 1, .list [], [], Scene.empty⟩,
   ⟨clerk 2, .list forkNodes, [("x", .int 1)], Scene.empty⟩,
   ⟨clerk 3, .list [.object [("id", .text "t"), ("type", .text "trigger")]], [], Scene.empty⟩]

theorem isTime_clerkCalls : ∀ c ∈ clerkCalls, c.scene.clock.IsTime := by
  intro c hc
  have hscene : c.scene = Scene.empty := by
    simp only [clerkCalls, List.mem_cons, List.not_mem_nil, or_false] at hc
    rcases hc with rfl | rfl | rfl <;> rfl
  rw [hscene]
  exact Scene.isTime_empty

theorem isWord_clerkCalls : ∀ c ∈ clerkCalls, ∀ g, Graph.load c.nodes = .ok g →
    isWord g.nodes.length = true := by
  intro c hc g hload
  have hall : clerkCalls.all (fun c => (Graph.load c.nodes).toOption.all fun g =>
      g.nodes.length ≤ 3) = true := by decide +kernel
  have hone := List.all_eq_true.1 hall c hc
  simp only [hload, Except.toOption, Option.all_some, decide_eq_true_eq] at hone
  exact isWord_of_lt (by omega)

theorem ids_clerkCalls : (clerkCalls.filterMap row?).map RunRecord.id = ["run-21", "run-31"] := by
  decide +kernel

theorem inOrder_clerkCalls : History.InOrder (clerkCalls.map (·.engine.env.now)) := by
  constructor
  · intro m hm
    have hmoment : m.offset = some 0 ∧ 0 ≤ m.clock ∧ m.clock < Calendar.endOfTime := by
      revert m
      decide
    exact ⟨hmoment.1, hmoment.2.1, hmoment.2.2⟩
  · decide

/-- A call with a number that has one digit more than are written. -/
def longCall : WorkflowCall :=
  ⟨clerk 1, .list [.object [("id", .text "t"), ("type", .text "trigger")]],
    [("x", .int ((10 ^ maxNumeralDigits : Nat) : Int))], Scene.empty⟩

theorem hasLongInteger_longCall (report : RunReport) (g : Graph) :
    (longCall.rowOf g report).hasLongInteger = true := by
  have hinitial : Value.anyLongField longCall.initial = true := by
    simp only [longCall, Value.anyLongField, Value.hasLongInteger_pow, Bool.true_or]
  simp only [RunRecord.hasLongInteger, rowOf, Engine.recordOf, hinitial, Bool.true_or]

end WorkflowCall

end Workgraph
