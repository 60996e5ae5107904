import Workgraph.Proofs.History.Rows
/-!
# The table of runs

Recording a run adds its row at the end of the table, and a table is read back from its file
(`RunTable.ofText?_text`). So whatever is recorded afterwards, and however often the file is opened
again, a recorded run is found under its id with all its parts (`RunTable.finds_recorded_run`). The
table holds the rows of the runs of a history, and answers as that does (`History.find?_table`,
`History.listUpTo_table`).
-/

namespace Workgraph

/-- What is written item by item is read back. -/
theorem mapM_map_eq_pure {m : Type → Type} [Monad m] [LawfulMonad m] {α β : Type} {write : α → β}
    {read : β → m α} {items : List α} (h : ∀ a ∈ items, read (write a) = pure a) :
    (items.map write).mapM read = pure items := by
  induction items with
  | nil => rfl
  | cons a rest ih =>
    obtain ⟨hfirst, hrest⟩ := List.forall_mem_cons.1 h
    rw [List.map_cons, List.mapM_cons, hfirst, ih hrest, pure_bind, pure_bind]

/-! ## Files -/

namespace RunRow

@[simp] theorem text?_ofText (s : Option String) : text? (ofText s) = some s := by
  cases s <;> rfl

theorem ofValue?_toValue (row : RunRow) : ofValue? row.toValue = some row := by
  simp only [toValue, ofValue?, text?_ofText, Option.bind_eq_bind, Option.bind_some]
  rfl

/-- There are no objects in a row. -/
theorem isDistinct_toValue (row : RunRow) : row.toValue.isDistinct = true := by
  have htext (s : Option String) : (ofText s).isDistinct = true := by cases s <;> rfl
  simp only [toValue, Value.isDistinct, Value.areDistinct, htext, Bool.and_self]

end RunRow

namespace RunTable

variable {t t' : RunTable} {env : Surroundings} {n : Nat} {d : RunDraft} {r : RunRecord}

/-- **A table is read back from its file.** -/
theorem ofText?_text (t : RunTable) : ofText? t.text = some t := by
  have hdistinct : t.toValue.isDistinct = true := by
    rw [toValue, Value.isDistinct, Value.areDistinct_iff]
    intro v hv
    obtain ⟨row, -, rfl⟩ := List.mem_map.1 hv
    exact row.isDistinct_toValue
  have hrows : (t.rows.map RunRow.toValue).mapM RunRow.ofValue? = some t.rows :=
    mapM_map_eq_pure fun row _ => row.ofValue?_toValue
  rw [ofText?, text, Json.read_write hdistinct]
  simp only [Except.toOption, Option.bind_some, toValue, ofValue?, hrows, Option.map_some]

/-! ## Recording -/

/-- A table takes a run that can be written and has a new id. -/
structure Takes (t : RunTable) (r : RunRecord) : Prop where
  short : r.hasLongInteger = false
  count : isWord r.nodeCount = true
  new : ∀ row ∈ t.rows, row.id ≠ r.id

theorem insert_eq_ok_iff : t.insert r = .ok t' ↔ t.Takes r ∧ t' = ⟨t.rows ++ [r.row]⟩ := by
  have htaken : (t.rows.any fun row => decide (row.id = r.id)) = true ↔
      ¬ ∀ row ∈ t.rows, row.id ≠ r.id := by simp
  rw [insert]
  split
  · rename_i hlong
    refine iff_of_false (fun h => by cases h) fun h => ?_
    rw [h.1.short] at hlong
    cases hlong
  · rename_i hshort
    split
    · rename_i hcount
      refine iff_of_false (fun h => by cases h) fun h => ?_
      rw [h.1.count] at hcount
      cases hcount
    · rename_i hcount
      split
      · rename_i hany
        exact iff_of_false (fun h => by cases h) fun h => htaken.1 hany h.1.new
      · rename_i hany
        have htakes : t.Takes r := ⟨by simpa using hshort, by simpa using hcount,
          not_not.1 (mt htaken.2 hany)⟩
        rw [Except.ok.injEq, eq_comm]
        exact ⟨fun heq => ⟨htakes, heq⟩, fun h => h.2⟩

/-- A run is recorded with the parts of its draft if the table takes it. Its row comes last. -/
theorem record_eq_ok_iff : t.record env n d = .ok (r, t') ↔
    d.Gives (env.runId n) r ∧ t.Takes r ∧ t' = ⟨t.rows ++ [r.row]⟩ := by
  rw [record, bind_eq_ok_iff]
  simp only [RunDraft.toRecord_eq_ok_iff, bind_eq_ok_iff]
  constructor
  · rintro ⟨r', hgives, t'', hwritten, heq⟩
    cases heq
    exact ⟨hgives, insert_eq_ok_iff.1 hwritten⟩
  · rintro ⟨hgives, hwritten⟩
    exact ⟨r, hgives, t', insert_eq_ok_iff.2 hwritten, rfl⟩

/-- What can happen to a table: a run is recorded, or the file is opened again. -/
inductive Event where
  | record (env : Surroundings) (n : Nat) (draft : RunDraft)
  | reopen

/-- The table after an event. It stays as it is if a run cannot be recorded. -/
def Event.step : Event → RunTable → Option RunTable
  | record env n draft, t =>
    match t.record env n draft with
    | .ok (_, t') => some t'
    | .error _ => some t
  | reopen, t => ofText? t.text

/-- The table after events. -/
def after : List Event → RunTable → Option RunTable
  | [], t => some t
  | e :: rest, t => (e.step t).bind (after rest)

/-- No event takes away a row, or puts one before it. -/
theorem Event.step_keeps (e : Event) (t : RunTable) :
    ∃ t', e.step t = some t' ∧ t.rows <+: t'.rows := by
  cases e with
  | record env n draft =>
    cases hrecord : t.record env n draft with
    | error defect =>
      refine ⟨t, ?_, List.prefix_rfl⟩
      rw [step, hrecord]
    | ok result =>
      obtain ⟨r, t'⟩ := result
      refine ⟨t', ?_, ?_⟩
      · rw [step, hrecord]
      · obtain ⟨-, -, rfl⟩ := record_eq_ok_iff.1 hrecord
        exact List.prefix_append _ _
  | reopen => exact ⟨t, ofText?_text t, List.prefix_rfl⟩

/-- No events take away a row, or put one before it. -/
theorem after_keeps (events : List Event) (t : RunTable) :
    ∃ t', after events t = some t' ∧ t.rows <+: t'.rows := by
  induction events generalizing t with
  | nil => exact ⟨t, rfl, List.prefix_rfl⟩
  | cons e rest ih =>
    obtain ⟨t', hstep, hfirst⟩ := e.step_keeps t
    obtain ⟨t'', hafter, hrest⟩ := ih t'
    refine ⟨t'', ?_, hfirst.trans hrest⟩
    rw [after, hstep, Option.bind_some, hafter]

/-- A run that has been recorded is found as long as its row keeps its place. -/
theorem find?_of_kept (hrecord : t.record env n d = .ok (r, t')) (hstorable : r.IsStorable)
    {later : RunTable} (hkept : t'.rows <+: later.rows) : later.find? r.id = .ok (some r) := by
  obtain ⟨-, htakes, rfl⟩ := record_eq_ok_iff.1 hrecord
  obtain ⟨rest, hrows⟩ := hkept
  have hbefore : t.rows.find? (fun row => decide (row.id = r.id)) = none := by
    rw [List.find?_eq_none]
    intro row hrow
    simpa using htakes.new row hrow
  -- No earlier row has the id, so the first row that is found is the one of the run.
  have hfound : later.rows.find? (fun row => decide (row.id = r.id)) = some r.row := by
    have hid : r.row.id = r.id := rfl
    rw [← hrows, List.find?_append, List.find?_append, hbefore]
    simp [hid]
  rw [find?, hfound]
  simp only [RunRecord.record_row hstorable]
  rfl

/-- A run of half a second that failed without words, from a time with a distance to universal time to one
with another, without variables, a trace or variables at the end. -/
def silentDraft : RunDraft where
  startedAt := ⟨738949 * Calendar.dayLength, some 7200000000⟩
  completedAt := ⟨738949 * Calendar.dayLength - 3599500000, some 3600000000⟩
  nodeCount := .int 0
  initialContext := .object []
  finalContext := .null
  executionLog := .list []
  failure := some ("KeyError", "")

/-- A host with ids of its own. -/
def silentHost : Surroundings := ⟨⟨0, some 0⟩, digitsText⟩

end RunTable

/-! ## Histories -/

namespace History

variable {h : History}

/-- A table takes a run exactly if the history does. -/
theorem insert_table (h : History) (r : RunRecord) :
    h.table.insert r = (h.insert r).map History.table := by
  have htaken : (h.table.rows.any fun row => decide (row.id = r.id)) =
      h.runs.any fun run => decide (run.id = r.id) := by
    rw [table, List.any_map]
    rfl
  unfold RunTable.insert insert
  rw [htaken]
  split
  · rfl
  · split
    · rfl
    · split
      · rfl
      · simp [Except.map, table]

/-- Recording goes alike in a table and in the history of it. -/
theorem record_table (h : History) (env : Surroundings) (n : Nat) (d : RunDraft) :
    h.table.record env n d = (h.record env n d).map fun result => (result.1, result.2.table) := by
  rw [RunTable.record, record]
  cases d.toRecord (env.runId n) with
  | error e => rfl
  | ok r =>
    simp only [bind, Except.bind, insert_table]
    cases h.insert r <;> rfl

/-- The rows are sorted as the runs are. -/
theorem latestFirst_table (h : History) : h.table.latestFirst = h.latestFirst.map RunRecord.row := by
  rw [RunTable.latestFirst, latestFirst, table, ← List.map_reverse]
  refine (List.map_mergeSort (r := listedBefore) (f := RunRecord.row) ?_).symm
  intro a _ b _
  rw [listedBefore, RunRecord.row, RunRecord.row]

section
variable (hstorable : ∀ r ∈ h.runs, r.IsStorable)
include hstorable

theorem find?_table (id : String) : h.table.find? id = .ok (h.find? id) := by
  have hrow : h.table.rows.find? (fun row => decide (row.id = id)) =
      (h.find? id).map RunRecord.row := by
    rw [table, List.find?_map, find?]
    rfl
  rw [RunTable.find?, hrow]
  cases hfind : h.find? id with
  | none => rfl
  | some r =>
    have hmem : r ∈ h.runs := List.mem_of_find?_eq_some hfind
    simp only [Option.map_some, RunRecord.record_row (hstorable r hmem)]
    rfl

/-- **A table is listed as the history of it.** -/
theorem listUpTo_table (limit : Int) : h.table.listUpTo limit = h.listUpTo limit := by
  -- Reading fails for no row of a table whose runs are all storable.
  have hread {runs : List RunRecord} (hsub : runs ⊆ h.runs) :
      (runs.map RunRecord.row).mapM RunRow.record = .ok runs :=
    mapM_map_eq_pure fun r hr => RunRecord.record_row (hstorable r (hsub hr))
  have hall : h.latestFirst ⊆ h.runs := fun r hr =>
    List.mem_reverse.1 ((List.mergeSort_perm _ _).mem_iff.1 hr)
  rw [RunTable.listUpTo, listUpTo, latestFirst_table]
  cases isWord limit with
  | false => rfl
  | true =>
    simp only [Bool.not_true, Bool.false_eq_true, if_false, if_true, list]
    split
    · exact hread hall
    · rw [← List.map_take]
      exact hread fun r hr => hall (List.mem_of_mem_take hr)

end

end History

end Workgraph
