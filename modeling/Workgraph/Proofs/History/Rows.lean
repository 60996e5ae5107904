import Workgraph.History.Table
import Workgraph.Proofs.Calendar.Reading
import Workgraph.Proofs.Schema.Fitting
import Workgraph.Proofs.Value.RoundTrip
/-!
# Rows of runs

The record of a run has exactly the parts of its draft (`RunDraft.toRecord_eq_ok_iff`). A row is read
back column by column (`RunRow.record_eq_ok_iff`): a text, a number and a document give what was written
there, a document also of what is empty, and a part that is missing is missing again. So a run record is
read back from its row (`RunRecord.record_row`), if its times are ones that texts spell and no object in
it has a name twice.
-/

namespace Workgraph

open Schema

/-- A step of a computation that may fail. -/
theorem bind_eq_ok_iff {ε α β : Type} {x : Except ε α} {f : α → Except ε β} {b : β} :
    x >>= f = .ok b ↔ ∃ a, x = .ok a ∧ f a = .ok b := by
  cases x with
  | error e => simp [bind, Except.bind]
  | ok a => simp [bind, Except.bind]

/-- A text that may be missing is written as null, or as itself. -/
theorem orNull_text_inj {x y : Option String} :
    (x.map Value.text).getD .null = (y.map Value.text).getD .null ↔ x = y := by
  cases x <;> cases y <;> simp

theorem statusPart_name (status : RunStatus) :
    RunRecord.statusPart (.text status.name) = .fits status := by
  cases status <;> rfl

namespace RunRecord

variable {r : RunRecord}

/-- A run record fits exactly if each of its fields does. -/
theorem ofParts_eq_fits_iff {started completed : Entries Value → Fit Calendar.Moment}
    {duration : Entries Value → Fit Binary64} {fields : Entries Value} :
    ofParts started completed duration fields = .fits r ↔
      requiredField "id" "id" text fields = .fits r.id ∧
      requiredField "status" "status" statusPart fields = .fits r.status ∧
      started fields = .fits r.startedAt ∧ completed fields = .fits r.completedAt ∧
      duration fields = .fits r.duration ∧
      requiredField "node_count" "node_count" integer fields = .fits r.nodeCount ∧
      optionalField [] "initial_context" "initial_context" (dictionary any) fields =
        .fits r.initialContext ∧
      nullableField "final_context" "final_context" (dictionary any) fields =
        .fits r.finalContext ∧
      optionalField [] "execution_log" "execution_log" (list (dictionary any)) fields =
        .fits r.executionLog ∧
      nullableField "error" "error" text fields = .fits r.error ∧
      nullableField "error_type" "error_type" text fields = .fits r.errorType := by
  obtain ⟨id, status, started', completed', duration', nodeCount, initial, final, log, error,
    errorType⟩ := r
  simp only [ofParts, Fit.seq_eq_fits_iff, Fit.map_eq_fits_iff, RunRecord.mk.injEq, existsAndEq,
    and_true, and_assoc]

/-- The fields of a draft and of a row, which are all there. -/
theorem ofParts_values_eq_fits_iff {started completed : Calendar.Moment} {duration : Binary64}
    {nodeCount initial final log : Value} {id status : String} {error errorType : Option String} :
    ofParts (fun _ => .fits started) (fun _ => .fits completed) (fun _ => .fits duration)
      [("id", .text id), ("status", .text status), ("node_count", nodeCount),
        ("initial_context", initial), ("final_context", final), ("execution_log", log),
        ("error", (error.map Value.text).getD .null),
        ("error_type", (errorType.map Value.text).getD .null)] = .fits r ↔
    id = r.id ∧ statusPart (.text status) = .fits r.status ∧ started = r.startedAt ∧
      completed = r.completedAt ∧ duration = r.duration ∧ integer nodeCount = .fits r.nodeCount ∧
      initial = .object r.initialContext ∧ final = (r.finalContext.map Value.object).getD .null ∧
      log = .list (r.executionLog.map Value.object) ∧ error = r.error ∧ errorType = r.errorType := by
  have hobject (x : Entries Value) : Value.object x ≠ .null := by simp
  have htext (x : String) : Value.text x ≠ .null := by simp
  rw [ofParts_eq_fits_iff, requiredField_eq_fits_iff rfl, requiredField_eq_fits_iff rfl,
    requiredField_eq_fits_iff rfl, optionalField_eq_fits_iff rfl, nullableField_eq_fits_iff rfl,
    optionalField_eq_fits_iff rfl, nullableField_eq_fits_iff rfl, nullableField_eq_fits_iff rfl,
    text_eq_fits_iff, dictionary_any_eq_fits_iff, list_dictionaries_eq_fits_iff,
    nullable_eq_fits_iff (fun _ _ => dictionary_any_eq_fits_iff) hobject,
    nullable_eq_fits_iff (fun _ _ => text_eq_fits_iff) htext,
    nullable_eq_fits_iff (fun _ _ => text_eq_fits_iff) htext]
  simp only [Fit.fits.injEq, Value.text.injEq, orNull_text_inj]

end RunRecord

/-! ## Drafts -/

/-- A run record has the parts of a draft. -/
structure RunDraft.Gives (d : RunDraft) (id : String) (r : RunRecord) : Prop where
  id : r.id = id
  status : r.status = if d.failure.isSome then .failed else .completed
  startedAt : r.startedAt = d.startedAt
  completedAt : r.completedAt = d.completedAt
  duration : elapsedMilliseconds d.startedAt d.completedAt = .ok r.duration
  nodeCount : integer d.nodeCount = .fits r.nodeCount
  initialContext : d.initialContext = .object r.initialContext
  finalContext : d.finalContext = (r.finalContext.map Value.object).getD .null
  executionLog : d.executionLog = .list (r.executionLog.map Value.object)
  error : r.error = d.failure.map Prod.snd
  errorType : r.errorType = d.failure.map Prod.fst

/-- **The record of a run has the parts of its draft.** -/
theorem RunDraft.toRecord_eq_ok_iff {d : RunDraft} {id : String} {r : RunRecord} :
    d.toRecord id = .ok r ↔ d.Gives id r := by
  rw [toRecord, bind_eq_ok_iff]
  constructor
  · rintro ⟨duration, hduration, h⟩
    simp only at h
    split at h
    · cases h
    · rename_i r' hfits
      cases h
      obtain ⟨hid, hstatus, hstarted, hcompleted, hmillis, hcount, hinitial, hfinal, hlog, herror,
        htype⟩ := RunRecord.ofParts_values_eq_fits_iff.1 hfits
      rw [statusPart_name, Fit.fits.injEq] at hstatus
      exact ⟨hid.symm, hstatus.symm, hstarted.symm, hcompleted.symm, hmillis ▸ hduration, hcount,
        hinitial, hfinal, hlog, herror.symm, htype.symm⟩
  · intro h
    refine ⟨r.duration, h.duration, ?_⟩
    have hfits := RunRecord.ofParts_values_eq_fits_iff.2 ⟨h.id.symm, statusPart_name r.status,
      h.startedAt.symm, h.completedAt.symm, rfl, h.nodeCount, h.initialContext, h.finalContext,
      h.executionLog, h.error.symm, h.errorType.symm⟩
    rw [h.status] at hfits
    simp only [hfits]
    rfl

/-! ## Rows -/

/-- A run whose record is read back from its row: its times are ones that texts spell, and no object
in it has a name twice. -/
structure RunRecord.IsStorable (r : RunRecord) : Prop where
  startedAt : r.startedAt.IsLegible
  completedAt : r.completedAt.IsLegible
  initialContext : (Value.object r.initialContext).isDistinct = true
  finalContext : ∀ fields ∈ r.finalContext, (Value.object fields).isDistinct = true
  executionLog : (Value.list (r.executionLog.map Value.object)).isDistinct = true

namespace RunRow

/-- A document is never empty. -/
theorem documentOr_write {default v : Value} (h : v.isDistinct = true) :
    documentOr default (some (Json.write Json.spaced v)) = .ok v := by
  have hsome : Json.write Json.spaced v ≠ "" := by
    intro hempty
    have hlength := Json.length_chars_pos v
    rw [← Json.write_toList, hempty] at hlength
    exact absurd hlength (by decide)
  rw [documentOr, if_neg hsome, Json.read_write h]
  rfl

theorem momentOf_eq_ok_iff {s : String} {m : Calendar.Moment} :
    momentOf s = .ok m ↔ Calendar.readMoment s = .ok m := Calendar.mapError_eq_ok_iff

/-- Each column of a row tells a part of a run record. -/
structure Tells (row : RunRow) (r : RunRecord) : Prop where
  id : row.id = r.id
  status : RunRecord.statusPart (.text row.status) = .fits r.status
  startedAt : Calendar.readMoment row.startedAt = .ok r.startedAt
  completedAt : Calendar.readMoment row.completedAt = .ok r.completedAt
  duration : row.duration = r.duration
  nodeCount : row.nodeCount = r.nodeCount
  initialContext : documentOr (.object []) row.initialContext = .ok (.object r.initialContext)
  finalContext : documentOr .null row.finalContext =
    .ok ((r.finalContext.map Value.object).getD .null)
  executionLog : documentOr (.list []) row.executionLog =
    .ok (.list (r.executionLog.map Value.object))
  error : row.error = r.error
  errorType : row.errorType = r.errorType

/-- **A row is read back column by column.** -/
theorem record_eq_ok_iff {row : RunRow} {r : RunRecord} : row.record = .ok r ↔ row.Tells r := by
  have hcount : integer (.int row.nodeCount) = .fits r.nodeCount ↔ row.nodeCount = r.nodeCount := by
    simp only [integer, Fit.fits.injEq]
  rw [record, bind_eq_ok_iff]
  simp only [bind_eq_ok_iff, momentOf_eq_ok_iff]
  constructor
  · rintro ⟨started, hstarted, completed, hcompleted, initial, hinitial, final, hfinal, log, hlog, h⟩
    split at h
    · cases h
    · rename_i r' hfits
      cases h
      obtain ⟨hid, hstatus, rfl, rfl, hduration, hnumber, rfl, rfl, rfl, herror, htype⟩ :=
        RunRecord.ofParts_values_eq_fits_iff.1 hfits
      exact ⟨hid, hstatus, hstarted, hcompleted, hduration, hcount.1 hnumber, hinitial, hfinal, hlog,
        herror, htype⟩
  · intro h
    have hfits := RunRecord.ofParts_values_eq_fits_iff.2 ⟨h.id, h.status, rfl, rfl, h.duration,
      hcount.2 h.nodeCount, rfl, rfl, rfl, h.error, h.errorType⟩
    refine ⟨_, h.startedAt, _, h.completedAt, _, h.initialContext, _, h.finalContext, _,
      h.executionLog, ?_⟩
    simp only [hfits]
    rfl

/-- The times that are read from a row are ones that texts spell. A distance of less than a second from
universal time is lost. -/
theorem isLegible_of_record {row : RunRow} {r : RunRecord} (h : row.record = .ok r) :
    r.startedAt.IsLegible ∧ r.completedAt.IsLegible := by
  have htells := record_eq_ok_iff.1 h
  exact ⟨Calendar.isLegible_of_readMoment htells.startedAt,
    Calendar.isLegible_of_readMoment htells.completedAt⟩

end RunRow

/-- **The record of a run is read back from its row.** -/
theorem RunRecord.record_row {r : RunRecord} (h : r.IsStorable) : r.row.record = .ok r := by
  rw [RunRow.record_eq_ok_iff]
  refine ⟨rfl, statusPart_name r.status, Calendar.readMoment_isoText h.startedAt,
    Calendar.readMoment_isoText h.completedAt, rfl, rfl, RunRow.documentOr_write h.initialContext, ?_,
    RunRow.documentOr_write h.executionLog, rfl, rfl⟩
  -- The one column that may be null.
  rw [row]
  cases hcontext : r.finalContext with
  | none => rfl
  | some fields => exact RunRow.documentOr_write (h.finalContext fields hcontext)

/-- A draft as callers can make it: texts spell its times, and no object in it has a name twice. -/
structure RunDraft.IsProper (d : RunDraft) : Prop where
  startedAt : ∃ text, Calendar.readMoment text = .ok d.startedAt
  completedAt : ∃ text, Calendar.readMoment text = .ok d.completedAt
  initialContext : d.initialContext.isDistinct = true
  finalContext : d.finalContext.isDistinct = true
  executionLog : d.executionLog.isDistinct = true

/-- The record of a proper draft is storable. -/
theorem RunDraft.Gives.isStorable {d : RunDraft} {id : String} {r : RunRecord} (h : d.Gives id r)
    (hd : d.IsProper) : r.IsStorable := by
  obtain ⟨hstarted, hcompleted, hinitial, hfinal, hlog⟩ := hd
  rw [← h.startedAt, ← Calendar.isLegible_iff_exists_text] at hstarted
  rw [← h.completedAt, ← Calendar.isLegible_iff_exists_text] at hcompleted
  rw [h.initialContext] at hinitial
  rw [h.executionLog] at hlog
  refine ⟨hstarted, hcompleted, hinitial, fun fields hfields => ?_, hlog⟩
  rw [h.finalContext, Option.mem_def.1 hfields] at hfinal
  exact hfinal

end Workgraph
