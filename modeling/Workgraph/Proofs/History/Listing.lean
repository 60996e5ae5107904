import Workgraph.Proofs.History.Recording
import Workgraph.Proofs.History.Table
/-!
# Listing the latest runs

Rows are sorted by the texts of the starts, which is the order of the moments if these are given in
universal time, and the sort keeps rows with the same start in the order of the table, the last one
first (`History.pairwise_latestFirst`). So the latest runs are listed, as many as a limit says
(`RunTable.lists_latest_runs`).
-/

namespace Workgraph

/-! ## Pairs in lists -/

/-- Of two items of a list one comes before the other. -/
theorem pair_sublist_or {α : Type} {a b : α} {items : List α} (ha : a ∈ items) (hb : b ∈ items)
    (hne : a ≠ b) : [a, b].Sublist items ∨ [b, a].Sublist items := by
  induction items with
  | nil => cases ha
  | cons x rest ih =>
    rcases List.mem_cons.1 ha with rfl | ha'
    · have hb' := (List.mem_cons.1 hb).resolve_left hne.symm
      exact .inl ((List.singleton_sublist.2 hb').cons_cons a)
    · rcases List.mem_cons.1 hb with rfl | hb'
      · exact .inr ((List.singleton_sublist.2 ha').cons_cons b)
      · exact (ih ha' hb').imp (.cons x) (.cons x)

/-- Of two items of a list without repetitions only one comes before the other. -/
theorem not_pair_sublist_swap {α : Type} {a b : α} {items : List α} (hnodup : items.Nodup)
    (h : [a, b].Sublist items) : ¬ [b, a].Sublist items := by
  intro hswap
  induction items with
  | nil => cases h
  | cons x rest ih =>
    obtain ⟨hx, hrest⟩ := List.nodup_cons.1 hnodup
    cases h with
    | cons _ h =>
      cases hswap with
      | cons _ hswap => exact ih hrest h hswap
      | cons_cons _ hswap => exact hx (h.subset (by simp))
    | cons_cons _ h =>
      cases hswap with
      | cons _ hswap => exact hx (hswap.subset (by simp))
      | cons_cons _ hswap => exact hx (h.subset (by simp))

/-! ## The order of the runs -/

/-- Of two recorded runs one is listed before the other: it started later, or at the same moment and was
recorded later. -/
def ListedBefore (runs : List RunRecord) (a b : RunRecord) : Prop :=
  b.startedAt.clock < a.startedAt.clock ∨
    a.startedAt.clock = b.startedAt.clock ∧ [b, a].Sublist runs

namespace History

variable {h : History}

theorem listedBefore_trans (a b c : RunRecord) (hab : listedBefore a b = true)
    (hbc : listedBefore b c = true) : listedBefore a c = true := by
  simp only [listedBefore, Bool.not_eq_true', decide_eq_false_iff_not, not_lt] at hab hbc ⊢
  exact hbc.trans hab

theorem listedBefore_total (a b : RunRecord) : (listedBefore a b || listedBefore b a) = true := by
  simp only [listedBefore, Bool.or_eq_true, Bool.not_eq_true', decide_eq_false_iff_not, not_lt]
  exact String.le_total _ _

/-- Runs with starts in universal time are sorted by the moments, and by the time of their recording
where these are the same. -/
theorem pairwise_latestFirst (huniversal : ∀ r ∈ h.runs, r.startedAt.IsUniversal)
    (hnodup : h.runs.Nodup) : h.latestFirst.Pairwise (ListedBefore h.runs) := by
  have hperm : h.latestFirst.Perm h.runs.reverse := List.mergeSort_perm _ _
  have hmem {r : RunRecord} (hr : r ∈ h.latestFirst) : r ∈ h.runs := by
    rw [← List.mem_reverse]
    exact hperm.mem_iff.1 hr
  have hdistinct : h.latestFirst.Nodup := hperm.nodup_iff.2 (List.nodup_reverse.2 hnodup)
  have hsorted : h.latestFirst.Pairwise fun a b => listedBefore a b = true :=
    List.pairwise_mergeSort listedBefore_trans listedBefore_total _
  rw [List.pairwise_iff_forall_sublist] at hsorted ⊢
  intro a b hab
  have ha : a ∈ h.runs := hmem (hab.subset (by simp))
  have hb : b ∈ h.runs := hmem (hab.subset (by simp))
  have htext := hsorted hab
  simp only [listedBefore, Bool.not_eq_true', decide_eq_false_iff_not] at htext
  rcases lt_trichotomy a.startedAt.clock b.startedAt.clock with hlt | heq | hgt
  · exact absurd (Calendar.Moment.isoText_lt (huniversal a ha) (huniversal b hb) hlt) htext
  · refine .inr ⟨heq, ?_⟩
    have hne : a ≠ b := by
      have := hdistinct.sublist hab
      simpa using this
    rcases pair_sublist_or hb ha hne.symm with hbefore | hafter
    · exact hbefore
    · -- The sort is stable: a run recorded later would come first.
      have hreverse : [b, a].Sublist h.runs.reverse := List.reverse_sublist.2 hafter
      have hsame : listedBefore b a = true := by
        simp only [listedBefore, Bool.not_eq_true', decide_eq_false_iff_not]
        exact Calendar.Moment.not_isoText_lt (huniversal a ha) (huniversal b hb) heq.le
      have hstable := List.pair_sublist_mergeSort listedBefore_trans listedBefore_total hsame hreverse
      exact absurd hstable (not_pair_sublist_swap hdistinct hab)
  · exact .inl hgt

end History

/-! ## Listing -/

namespace RunTable

/-- Runs are recorded one after another in a table that was empty, by proper drafts that start at moments
in universal time. -/
inductive Records : List RunRecord → RunTable → Prop where
  | empty : Records [] .empty
  | record {runs : List RunRecord} {t t' : RunTable} {env : Surroundings} {n : Nat} {d : RunDraft}
      {r : RunRecord} (before : Records runs t) (proper : d.IsProper)
      (universal : d.startedAt.IsUniversal) (recorded : t.record env n d = .ok (r, t')) :
      Records (runs ++ [r]) t'

variable {runs : List RunRecord} {t : RunTable}

/-- The table holds the rows of the runs, whose ids are all different. -/
theorem Records.spec (h : Records runs t) : t = History.table ⟨runs⟩ ∧
    (∀ r ∈ runs, r.IsStorable ∧ r.startedAt.IsUniversal) ∧ (runs.map RunRecord.id).Nodup := by
  induction h with
  | empty => exact ⟨rfl, by simp, List.nodup_nil⟩
  | record before proper universal recorded ih =>
    rename_i runs t t' env n d r
    obtain ⟨rfl, hruns, hids⟩ := ih
    obtain ⟨hgives, htakes, rfl⟩ := record_eq_ok_iff.1 recorded
    refine ⟨?_, ?_, ?_⟩
    · simp only [History.table, List.map_append, List.map_cons, List.map_nil]
    · intro run hrun
      rcases List.mem_append.1 hrun with hold | hlast
      · exact hruns run hold
      · obtain rfl := List.mem_singleton.1 hlast
        exact ⟨hgives.isStorable proper, hgives.startedAt ▸ universal⟩
    · rw [List.map_append, List.nodup_append]
      refine ⟨hids, List.nodup_singleton _, ?_⟩
      rintro id hid id' hid' rfl
      obtain ⟨run, hrun, rfl⟩ := List.mem_map.1 hid
      rw [List.map_singleton, List.mem_singleton] at hid'
      exact htakes.new run.row (List.mem_map_of_mem hrun) hid'

/-- **The latest runs are listed**, as many as the limit says or there are: the later start first, and of
equal starts the one that was recorded later. A limit beyond a word is refused. -/
theorem lists_latest_runs (h : Records runs t) {limit : Int} (hlimit : 0 ≤ limit) :
    (runs.map RunRecord.id).Nodup ∧
      if limit < 2 ^ 63 then
        ∃ listed rest, t.listUpTo limit = .ok listed ∧
          (listed.length : Int) = min limit runs.length ∧
          (listed ++ rest).Perm runs ∧ (listed ++ rest).Pairwise (ListedBefore runs)
      else t.listUpTo limit = .error .storedInteger := by
  obtain ⟨rfl, hruns, hids⟩ := h.spec
  have hhalf : (wordHalf : Int) = 2 ^ 63 := by norm_num [wordHalf]
  refine ⟨hids, ?_⟩
  rw [History.listUpTo_table fun r hr => (hruns r hr).1, History.listUpTo]
  split
  · rename_i hsmall
    have hword : isWord limit = true := by
      rw [isWord, hhalf, Bool.and_eq_true, decide_eq_true_eq, decide_eq_true_eq]
      omega
    rw [if_pos hword, History.list, if_neg (by omega)]
    have hperm : (History.latestFirst ⟨runs⟩).Perm runs :=
      (List.mergeSort_perm _ _).trans (List.reverse_perm runs)
    refine ⟨_, (History.latestFirst ⟨runs⟩).drop limit.toNat, rfl, ?_, ?_, ?_⟩
    · rw [List.length_take, hperm.length_eq]
      omega
    · rwa [List.take_append_drop]
    · rw [List.take_append_drop]
      exact History.pairwise_latestFirst (fun r hr => (hruns r hr).2) (List.Nodup.of_map _ hids)
  · rename_i hlarge
    have hword : isWord limit = false := by
      rw [isWord, hhalf, Bool.and_eq_false_iff, decide_eq_false_iff_not, decide_eq_false_iff_not]
      omega
    rw [hword, if_neg (by decide)]

/-- A run without variables that ends as soon as it starts. -/
def instantDraft (clock : Int) : RunDraft :=
  ⟨⟨clock, some 0⟩, ⟨clock, some 0⟩, .int 1, .object [], .object [], .list [], none⟩

theorem Records.instant (h : Records runs t) {n : Nat} {clock : Int} (hstart : 0 ≤ clock)
    (hend : clock < Calendar.endOfTime) (hnew : ∀ r ∈ runs, r.id ≠ silentHost.runId n) :
    ∃ r t', Records (runs ++ [r]) t' ∧ r.id = silentHost.runId n ∧ r.startedAt.clock = clock := by
  have huniversal : Calendar.Moment.IsUniversal ⟨clock, some 0⟩ := ⟨rfl, hstart, hend⟩
  have htext := Calendar.isLegible_iff_exists_text.1 huniversal.isLegible
  obtain ⟨x, hx⟩ : ∃ x, elapsedMilliseconds ⟨clock, some 0⟩ ⟨clock, some 0⟩ = .ok x :=
    ⟨_, if_neg (by simp)⟩
  have hgives : (instantDraft clock).Gives (silentHost.runId n) ⟨silentHost.runId n, .completed,
      ⟨clock, some 0⟩, ⟨clock, some 0⟩, x, 1, [], some [], [], none, none⟩ :=
    ⟨rfl, rfl, rfl, rfl, hx, rfl, rfl, rfl, rfl, rfl, rfl⟩
  have hrows : ∀ row ∈ t.rows, row.id ≠ silentHost.runId n := by
    rw [h.spec.1]
    intro row hrow
    obtain ⟨run, hrun, rfl⟩ := List.mem_map.1 hrow
    exact hnew run hrun
  exact ⟨_, _, .record h ⟨htext, htext, rfl, rfl, rfl⟩ huniversal
    (record_eq_ok_iff.2 ⟨hgives, ⟨rfl, show isWord 1 = true by decide, hrows⟩, rfl⟩), rfl, rfl⟩

/-- The two latest of three runs, of which the first and the last started at the same moment. -/
theorem lists_two_of_three : ∃ runs t, Records runs t ∧
    runs.map (fun r => r.startedAt.clock) = [5, 3, 5] ∧ (0 : Int) ≤ 2 ∧
    (runs.map RunRecord.id).Nodup ∧
      if (2 : Int) < 2 ^ 63 then
        ∃ listed rest, t.listUpTo 2 = .ok listed ∧ (listed.length : Int) = min 2 runs.length ∧
          (listed ++ rest).Perm runs ∧ (listed ++ rest).Pairwise (ListedBefore runs)
      else t.listUpTo 2 = .error .storedInteger := by
  have hend (clock : Int) (h : clock < 6) : clock < Calendar.endOfTime :=
    h.trans (by decide)
  obtain ⟨first, t₁, h₁, hid₁, hclock₁⟩ := Records.empty.instant (show (0 : Int) ≤ 5 by norm_num)
    (hend 5 (by norm_num)) (n := 1) (by simp)
  obtain ⟨second, t₂, h₂, hid₂, hclock₂⟩ := h₁.instant (show (0 : Int) ≤ 3 by norm_num)
    (hend 3 (by norm_num)) (n := 2) (by
      simp only [List.nil_append, List.mem_singleton, forall_eq, hid₁]
      decide)
  obtain ⟨third, t₃, h₃, -, hclock₃⟩ := h₂.instant (show (0 : Int) ≤ 5 by norm_num)
    (hend 5 (by norm_num)) (n := 3) (by
      simp only [List.nil_append, List.mem_append, List.mem_singleton, forall_eq_or_imp, forall_eq,
        hid₁, hid₂]
      decide)
  refine ⟨_, t₃, h₃, ?_, by norm_num, lists_latest_runs h₃ (by norm_num)⟩
  simp only [List.nil_append, List.map_append, List.map_singleton, hclock₁, hclock₂, hclock₃]
  rfl

/-- Without any run, the least limit beyond a word is refused. -/
theorem long_limit_refused : Records [] .empty ∧ (0 : Int) ≤ 2 ^ 63 ∧
    ¬ ∃ listed, RunTable.empty.listUpTo (2 ^ 63) = .ok listed := by
  refine ⟨.empty, by norm_num, ?_⟩
  rintro ⟨listed, hlisted⟩
  have hword : isWord (2 ^ 63) = false := by decide
  rw [listUpTo, hword] at hlisted
  cases hlisted

end RunTable

end Workgraph
