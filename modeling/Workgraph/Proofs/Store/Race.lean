import Mathlib.Data.List.TakeWhile
import Workgraph.Proofs.Store.Interchange
import Workgraph.Store.Column
/-!
# Updates of one record side by side

In a database an update reads a record and later writes it back, changed. Between these two accesses
others may come, and what they have written is overwritten. So the record in the end does not hold the
values of all updates, but of those in one chain: the last to write, the last to write before that one
read, and so on (`survivors`, `updates_survive`). Each update is in the chain only if the updates
access the record one after another (`mem_survivors_iff_oneByOne`); two that both read first lose a
value (`crossed_loses`).
-/

namespace Workgraph

/-! ## Updates in two accesses -/

/-- An update of a record: what it takes from outside, and the new data. -/
structure RecordUpdate where
  env : Surroundings
  data : Entries Value

namespace RecordUpdate

/-- The record that an update makes of one. -/
def change (u : RecordUpdate) (r : Record) : Record := Record.change r u.env.stamp u.data

/-- How far an update has come. -/
inductive Stage where
  | start
  /-- It has read the record, and is about to write. -/
  | holds (old : Record)
  | done (answer : Except Defect Value)

end RecordUpdate

/-- Updates of one record of a database, side by side. -/
structure Race (ι : Type) where
  database : Database
  stage : ι → RecordUpdate.Stage

/-! ## The database -/

namespace Value

theorem anyLongField_eq_false {fields : List (String × Value)} :
    anyLongField fields = false ↔ ∀ e ∈ fields, e.2.hasLongInteger = false := by
  induction fields with
  | nil => simp [anyLongField]
  | cons e rest ih =>
    obtain ⟨k, v⟩ := e
    rw [anyLongField, Bool.or_eq_false_iff, ih, List.forall_mem_cons]

end Value

namespace Record

/-- A record that a database can hold under an id, as a document that reads back. -/
structure Storable (id : String) (r : Record) : Prop where
  id : Record.id r = .text id
  distinct : (Value.object r).isDistinct = true
  writable : (Value.object r).hasLongInteger = false

variable {id : String} {r : Record} {data : Entries Value}

theorem hasLongInteger_change (hr : (Value.object r).hasLongInteger = false)
    (hdata : (Value.object data).hasLongInteger = false) (stamp : String) :
    (Value.object (r.change stamp data)).hasLongInteger = false := by
  rw [Value.hasLongInteger, Value.anyLongField_eq_false] at hr hdata ⊢
  have hkept : ∀ e ∈ data.without "id", e.2.hasLongInteger = false :=
    fun e he => hdata e (List.mem_filter.1 he).1
  intro e he
  rcases Entries.mem_set he with rfl | he
  · rfl
  · rcases Entries.mem_merge he with he | he
    · exact hr e he
    · exact hkept e he

theorem Storable.change (h : Storable id r) (hdistinct : (Value.object data).isDistinct = true)
    (hwritable : (Value.object data).hasLongInteger = false) (stamp : String) :
    Storable id (r.change stamp data) where
  id := (id_change r stamp data).trans h.id
  distinct := isDistinct_change h.distinct hdistinct stamp
  writable := hasLongInteger_change h.writable hwritable stamp

end Record

namespace Database

variable {d : Database} {entity id : String} {old new : Record}

theorem recordOf?_text (d : Database) (entity id : String) :
    d.recordOf? (.text entity) (.text id) = .ok (d.record? entity id) := rfl

/-- What is written goes under the id that the record itself has. -/
theorem replaceRecord_text (d : Database) (entity : String) (hid : Record.id new = .text id) :
    d.replaceRecord (.text entity) new = d.replace entity id new := by
  have hget : Entries.get? new "id" = some (.text id) := by
    rw [Record.id] at hid
    cases hnew : Entries.get? new "id" with
    | none =>
      rw [hnew] at hid
      cases hid
    | some v =>
      rw [hnew] at hid
      exact congrArg some hid
  have hidOf : idOf 3 new = .ok (some id) := by
    rw [idOf, hget]
    rfl
  have hhas : Entries.has new "id" = true := by
    rw [Entries.has, hget]
    rfl
  simp only [replaceRecord, hhas, hidOf, replace]
  cases hdocument : Json.document (.object new) with
  | error defect => rfl
  | ok document =>
    simp only [bind, Except.bind]
    rfl

/-- A record that can be stored is written into the row with its id. -/
theorem replaceRecord_storable (d : Database) (entity : String) (h : Record.Storable id new) :
    ∃ document, Json.documentFields document = new ∧
      d.replaceRecord (.text entity) new = .ok (d.rewrite entity id document) := by
  have hdocument : Json.document (.object new) = .ok (Json.write Json.spaced (.object new)) := by
    rw [Json.document, h.writable]
    rfl
  refine ⟨_, Json.documentFields_document h.distinct hdocument, ?_⟩
  rw [replaceRecord_text d entity h.id, replace, hdocument]
  rfl

theorem rewriteRow_id (entity id document : String) (row : RecordRow) :
    (rewriteRow entity id document row).id = row.id := by
  unfold rewriteRow
  split <;> rfl

/-- The row with an id holds what is written into it. -/
theorem record?_rewrite (h : d.record? entity id = some old) (document : String) :
    (d.rewrite entity id document).record? entity id = some (Json.documentFields document) := by
  have hsame : (fun row : RecordRow => row.is entity id) ∘ rewriteRow entity id document =
      fun row => row.is entity id := by
    funext row
    rw [Function.comp_apply, RecordRow.is, RecordRow.is, rewriteRow_entity, rewriteRow_id]
  rw [record?, Option.map_eq_some_iff] at h
  obtain ⟨row, hrow, -⟩ := h
  have his : row.is entity id = true :=
    List.find?_some (p := fun row : RecordRow => row.is entity id) hrow
  rw [record?, rewrite, List.find?_map, hsame, hrow, Option.map_some, Option.map_some, rewriteRow,
    if_pos his]
  rfl

end Database

namespace Race

variable {ι : Type} [DecidableEq ι]

section
variable (entity id : String) (updates : ι → RecordUpdate)

/-- The next access of an update: it reads the record, or it writes what it has read with its own data.
-/
def step (s : Race ι) (i : ι) : Race ι :=
  match s.stage i with
  | .start =>
    match s.database.recordOf? (.text entity) (.text id) with
    | .ok (some old) => { s with stage := Function.update s.stage i (.holds old) }
    | .ok none => { s with stage := Function.update s.stage i (.done (.ok .null)) }
    | .error d => { s with stage := Function.update s.stage i (.done (.error d)) }
  | .holds old =>
    let new := (updates i).change old
    match s.database.replaceRecord (.text entity) new with
    | .ok d => ⟨d, Function.update s.stage i (.done (.ok (.object new)))⟩
    | .error d => { s with stage := Function.update s.stage i (.done (.error d)) }
  | .done _ => s

/-- The database and the updates after some accesses. The latest access comes first. -/
def after (d : Database) : List ι → Race ι
  | [] => ⟨d, fun _ => .start⟩
  | i :: before => step entity id updates (after d before) i

end

/-- **An update alone** is the operation of the store: its two accesses, one right after the other, leave
the database that the operation leaves, and have its answer. -/
theorem after_alone (entity id : String) (updates : ι → RecordUpdate) (i : ι) (d : Database)
    (drawn : Nat) (hid : ∀ old, d.record? entity id = some old → Record.id old = .text id) :
    ∃ answer, (after entity id updates d [i, i]).stage i = .done answer ∧
      Repository.update (updates i).env entity id (updates i).data ⟨.database d, drawn⟩ =
        (answer, ⟨.database (after entity id updates d [i, i]).database, drawn⟩) := by
  simp only [after, step, Repository.update, Store.record?, Database.recordOf?_text]
  cases hold : d.record? entity id with
  | none =>
    simp only [Function.update_self]
    exact ⟨_, rfl, rfl⟩
  | some old =>
    have hnew : Record.id ((updates i).change old) = .text id :=
      (Record.id_change old _ _).trans (hid old hold)
    simp only [Function.update_self, Database.replaceRecord_text d entity hnew, Store.replace]
    rw [RecordUpdate.change]
    cases d.replace entity id (Record.change old (updates i).env.stamp (updates i).data) with
    | error defect => exact ⟨_, Function.update_self .., rfl⟩
    | ok d' => exact ⟨_, Function.update_self .., rfl⟩

/-- What came before the last access of an update. -/
def beforeLast (i : ι) (accesses : List ι) : List ι := (accesses.dropWhile (· ≠ i)).tail

theorem length_beforeLast_le (i : ι) (accesses : List ι) :
    (beforeLast i accesses).length ≤ accesses.length := by
  have hdrop := (List.dropWhile_sublist (· ≠ i) (l := accesses)).length_le
  rw [beforeLast, List.length_tail]
  omega

/-- The updates that are left in the record, each with two accesses at most. When an update writes, that
is those that were left when it read, and itself. -/
def survivors : List ι → List ι
  | [] => []
  | i :: before =>
    if i ∈ before then survivors (beforeLast i before) ++ [i] else survivors before
termination_by accesses => accesses.length
decreasing_by
  · exact Nat.lt_succ_of_le (length_beforeLast_le i before)
  · exact Nat.lt_succ_self before.length

section
variable {i j : ι} {before accesses : List ι}

theorem survivors_read (h : i ∉ before) : survivors (i :: before) = survivors before := by
  rw [survivors, if_neg h]

theorem survivors_write (h : i ∈ before) :
    survivors (i :: before) = survivors (beforeLast i before) ++ [i] := by
  rw [survivors, if_pos h]

/-- An update is only left in the record when it has written. -/
theorem two_le_count (h : j ∈ survivors accesses) : 2 ≤ accesses.count j := by
  induction accesses using survivors.induct with
  | case1 => rw [survivors] at h; cases h
  | case2 i before hi ih =>
    rw [survivors_write hi, List.mem_append, List.mem_singleton] at h
    rcases h with h | rfl
    · have hsublist : (beforeLast i before).Sublist (i :: before) :=
        ((List.tail_sublist _).trans (List.dropWhile_sublist _)).trans (List.sublist_cons_self i before)
      exact Nat.le_trans (ih h) (hsublist.count_le j)
    · have hpos := List.count_pos_iff.2 hi
      rw [List.count_cons_self]
      omega
  | case3 i before hi ih =>
    rw [survivors_read hi] at h
    exact Nat.le_trans (ih h) ((List.sublist_cons_self i before).count_le j)

theorem beforeLast_cons_self (i : ι) (before : List ι) : beforeLast i (i :: before) = before := by
  rw [beforeLast, List.dropWhile_cons, if_neg (by simp)]
  rfl

theorem beforeLast_cons_of_ne (h : i ≠ j) (before : List ι) :
    beforeLast j (i :: before) = beforeLast j before := by
  rw [beforeLast, List.dropWhile_cons, if_pos (by simpa using h)]
  rfl

/-- The accesses before and after the last one of an update. -/
theorem exists_split (h : i ∈ before) :
    ∃ newer, before = newer ++ i :: beforeLast i before ∧ i ∉ newer := by
  refine ⟨before.takeWhile (· ≠ i), ?_, fun hmem => ?_⟩
  · have hne : before.dropWhile (· ≠ i) ≠ [] := by
      intro hnil
      have hall := List.dropWhile_eq_nil_iff.1 hnil i h
      exact of_decide_eq_true hall rfl
    obtain ⟨k, older, hdrop⟩ := List.exists_cons_of_ne_nil hne
    have hk := List.head_dropWhile_not (fun j => decide (j ≠ i)) hne
    simp only [hdrop, List.head_cons, decide_eq_false_iff_not, not_not] at hk
    subst hk
    rw [beforeLast, hdrop, List.tail_cons, ← hdrop, List.takeWhile_append_dropWhile]
  · have hne := List.mem_takeWhile_imp hmem
    exact of_decide_eq_true hne rfl

/-- Updates that access the record one after another. -/
def OneByOne (accesses : List ι) : Prop := ∃ order : List ι, accesses = order.flatMap fun i => [i, i]

omit [DecidableEq ι] in
theorem oneByOne_cons_iff :
    OneByOne (i :: before) ↔ ∃ older, before = i :: older ∧ OneByOne older := by
  constructor
  · rintro ⟨order, horder⟩
    cases order with
    | nil => cases horder
    | cons k order =>
      cases horder
      exact ⟨_, rfl, order, rfl⟩
  · rintro ⟨_, rfl, order, rfl⟩
    exact ⟨i :: order, rfl⟩

/-- **All updates are left just when they access the record one after another.** -/
theorem mem_survivors_iff_oneByOne (htwice : ∀ i ∈ accesses, accesses.count i = 2) :
    (∀ i ∈ accesses, i ∈ survivors accesses) ↔ OneByOne accesses := by
  induction accesses using survivors.induct with
  | case1 => exact ⟨fun _ => ⟨[], rfl⟩, fun _ i hi => absurd hi List.not_mem_nil⟩
  | case3 i before hi ih =>
    -- The only access of this update would be its first.
    have honce := htwice i List.mem_cons_self
    rw [List.count_cons_self, List.count_eq_zero.2 hi] at honce
    cases honce
  | case2 i before hi ih =>
    obtain ⟨newer, hbefore, hnewer⟩ := exists_split hi
    rw [survivors_write hi]
    generalize beforeLast i before = older at hbefore ih ⊢
    subst hbefore
    have hcount (j : ι) : (i :: (newer ++ i :: older)).count j =
        newer.count j + older.count j + 2 * (if i = j then 1 else 0) := by
      rw [List.count_cons, List.count_append, List.count_cons]
      by_cases hij : i = j <;> simp [hij]; omega
    have holder : i ∉ older := by
      intro hmem
      have hpos := List.count_pos_iff.2 hmem
      have htwo := htwice i List.mem_cons_self
      rw [hcount, if_pos rfl] at htwo
      omega
    rw [oneByOne_cons_iff]
    constructor
    · intro hall
      -- An update in between has read before the write that it would have to survive.
      have hnone : newer = [] := by
        rw [List.eq_nil_iff_forall_not_mem]
        intro j hj
        have hji : j ≠ i := fun heq => hnewer (heq ▸ hj)
        have hmem : j ∈ i :: (newer ++ i :: older) :=
          List.mem_cons_of_mem i (List.mem_append_left _ hj)
        have hsurvives := (List.mem_append.1 (hall j hmem)).resolve_right
          fun h => hji (List.mem_singleton.1 h)
        have htwo := htwice j hmem
        have hpos := List.count_pos_iff.2 hj
        have hleast := two_le_count hsurvives
        rw [hcount] at htwo
        omega
      subst hnone
      refine ⟨older, rfl, (ih fun j hj => ?_).1 fun j hj => ?_⟩
      · have hij : ¬ i = j := fun heq => holder (heq ▸ hj)
        have htwo := htwice j (List.mem_cons_of_mem i (List.mem_cons_of_mem i hj))
        rw [hcount, if_neg hij, List.count_nil] at htwo
        omega
      · have hall' := hall j (List.mem_cons_of_mem i (List.mem_cons_of_mem i hj))
        exact (List.mem_append.1 hall').resolve_right
          fun h => holder (List.mem_singleton.1 h ▸ hj)
    · rintro ⟨older', heq, horder⟩ j hj
      have hnone : newer = [] := by
        cases newer with
        | nil => rfl
        | cons k newer =>
          cases heq
          exact absurd List.mem_cons_self hnewer
      subst hnone
      cases heq
      by_cases hij : j = i
      · exact List.mem_append_right _ (List.mem_singleton.2 hij)
      · have hj' : j ∈ older := by simpa [hij] using hj
        refine List.mem_append_left _ ((ih fun k hk => ?_).2 horder j hj')
        have hik : ¬ i = k := fun heq => holder (heq ▸ hk)
        have htwo := htwice k (List.mem_cons_of_mem i (List.mem_cons_of_mem i hk))
        rw [hcount, if_neg hik, List.count_nil] at htwo
        omega

end

/-! ## What the updates come to -/

section
variable {entity id : String} {updates : ι → RecordUpdate} {d : Database} {base : Record}

/-- Updates that can be written, none of which has a name in common with another. -/
structure Compatible (updates : ι → RecordUpdate) : Prop where
  distinct : ∀ i, (Value.object (updates i).data).isDistinct = true
  writable : ∀ i, (Value.object (updates i).data).hasLongInteger = false
  disjoint : ∀ i j, i ≠ j → ∀ name ∈ (updates i).data.map Prod.fst,
    name ∉ (updates j).data.map Prod.fst
  not_id : ∀ i, "id" ∉ (updates i).data.map Prod.fst
  not_updated : ∀ i, "updated_date" ∉ (updates i).data.map Prod.fst

/-- A record after some updates, one after another. -/
def changed (updates : ι → RecordUpdate) (base : Record) (chain : List ι) : Record :=
  chain.foldl (fun r i => (updates i).change r) base

omit [DecidableEq ι] in
theorem changed_concat (updates : ι → RecordUpdate) (base : Record) (chain : List ι) (i : ι) :
    changed updates base (chain ++ [i]) = (updates i).change (changed updates base chain) := by
  rw [changed, List.foldl_append]
  rfl

omit [DecidableEq ι] in
theorem Compatible.storable (h : Compatible updates) (hbase : Record.Storable id base)
    (chain : List ι) : Record.Storable id (changed updates base chain) := by
  induction chain using List.reverseRecOn with
  | nil => exact hbase
  | append_singleton chain i ih =>
    rw [changed_concat]
    exact ih.change (h.distinct i) (h.writable i) _

/-- The values of an update are in the record if the update is among those that it went through. -/
theorem Compatible.get?_changed (h : Compatible updates) {i : ι} {name : String} {v : Value}
    (hmem : (name, v) ∈ (updates i).data) (chain : List ι) :
    (changed updates base chain).get? name = if i ∈ chain then some v else base.get? name := by
  have hname : name ∈ (updates i).data.map Prod.fst := List.mem_map_of_mem hmem
  have hid : name ≠ "id" := fun heq => h.not_id i (heq ▸ hname)
  have hupdated : name ≠ "updated_date" := fun heq => h.not_updated i (heq ▸ hname)
  induction chain using List.reverseRecOn with
  | nil => rfl
  | append_singleton chain j ih =>
    rw [changed_concat, RecordUpdate.change, Record.change, Entries.get?_set_of_ne hupdated]
    -- Only the update itself writes the name, and it writes it once.
    by_cases hij : i = j
    · subst hij
      have hnames : ((updates i).data.without "id").map Prod.fst |>.Nodup :=
        (Value.isDistinct_object_iff.1 (h.distinct i)).1.sublist
          ((List.filter_sublist).map Prod.fst)
      have hkept : (name, v) ∈ (updates i).data.without "id" :=
        List.mem_filter.2 ⟨hmem, decide_eq_true hid⟩
      rw [Entries.get?_merge_of_mem hnames hkept, if_pos (List.mem_append_right chain (List.mem_singleton_self i))]
    · have hother : name ∉ ((updates j).data.without "id").map Prod.fst := fun hmem' =>
        h.disjoint i j hij name hname ((List.filter_sublist.map Prod.fst).subset hmem')
      have hiff : i ∈ chain ++ [j] ↔ i ∈ chain := by
        rw [List.mem_append, List.mem_singleton, or_iff_left hij]
      rw [Entries.get?_merge_of_not_mem hother, ih]
      simp only [hiff]

/-- How far an update is after some accesses: what it holds is what it has read. -/
structure AsFar (updates : ι → RecordUpdate) (base : Record) (accesses : List ι) (i : ι)
    (stage : RecordUpdate.Stage) : Prop where
  start : accesses.count i = 0 → stage = .start
  holds : accesses.count i = 1 →
    stage = .holds (changed updates base (survivors (beforeLast i accesses)))
  done : accesses.count i = 2 → ∃ new, stage = .done (.ok (.object new))

/-- An access of another update leaves it where it is. -/
theorem AsFar.cons {i j : ι} {before : List ι} {stage : RecordUpdate.Stage}
    (h : AsFar updates base before j stage) (hij : i ≠ j) :
    AsFar updates base (i :: before) j stage := by
  have hcount : (i :: before).count j = before.count j := List.count_cons_of_ne hij
  constructor
  · rw [hcount]
    exact h.start
  · rw [hcount, beforeLast_cons_of_ne hij]
    exact h.holds
  · rw [hcount]
    exact h.done

/-- After some accesses the record holds the updates that are left in it, and each update is as far as
its accesses have brought it. -/
structure Holds (entity id : String) (updates : ι → RecordUpdate) (base : Record)
    (accesses : List ι) (s : Race ι) : Prop where
  record : s.database.record? entity id = some (changed updates base (survivors accesses))
  stage : ∀ i, AsFar updates base accesses i (s.stage i)

/-- Only the update that has the access goes on. -/
theorem Holds.asFar {before : List ι} {s : Race ι} (hs : Holds entity id updates base before s) {i : ι}
    {stage : RecordUpdate.Stage} (hstage : AsFar updates base (i :: before) i stage) (j : ι) :
    AsFar updates base (i :: before) j (Function.update s.stage i stage j) := by
  by_cases hij : i = j
  · subst hij
    rw [Function.update_self]
    exact hstage
  · rw [Function.update_of_ne (Ne.symm hij)]
    exact (hs.stage j).cons hij

/-- **One access** brings the record and the updates one access further. -/
theorem Holds.step (h : Compatible updates) (hbase : Record.Storable id base) {before : List ι}
    {s : Race ι} (hs : Holds entity id updates base before s) {i : ι} (hi : before.count i ≤ 1) :
    Holds entity id updates base (i :: before) (s.step entity id updates i) := by
  by_cases hmem : i ∈ before
  · -- The second access writes what the first has read.
    have honce : before.count i = 1 := Nat.le_antisymm hi (List.count_pos_iff.2 hmem)
    have htwice : (i :: before).count i = 2 := by rw [List.count_cons_self, honce]
    have hstorable := h.storable hbase (survivors (i :: before))
    rw [survivors_write hmem, changed_concat] at hstorable
    obtain ⟨document, hdocument, hreplace⟩ :=
      Database.replaceRecord_storable s.database entity hstorable
    rw [Race.step, (hs.stage i).holds honce]
    simp only [hreplace]
    constructor
    · rw [survivors_write hmem, changed_concat, ← hdocument]
      exact Database.record?_rewrite hs.record document
    · apply hs.asFar
      constructor
      · intro hzero
        omega
      · intro hone
        omega
      · exact fun _ => ⟨_, rfl⟩
  · -- The first access reads what is there.
    have hzero : before.count i = 0 := List.count_eq_zero.2 hmem
    have honce : (i :: before).count i = 1 := by rw [List.count_cons_self, hzero]
    rw [Race.step, (hs.stage i).start hzero]
    simp only [Database.recordOf?_text, hs.record]
    constructor
    · rw [survivors_read hmem]
      exact hs.record
    · apply hs.asFar
      constructor
      · intro hnone
        omega
      · intro _
        rw [beforeLast_cons_self]
      · intro htwice
        omega

/-- **All accesses.** -/
theorem holds_after (h : Compatible updates) (hbase : Record.Storable id base)
    (hrecord : d.record? entity id = some base) {accesses : List ι}
    (hcount : ∀ i, accesses.count i ≤ 2) :
    Holds entity id updates base accesses (after entity id updates d accesses) := by
  induction accesses with
  | nil =>
    constructor
    · rw [survivors]
      exact hrecord
    · exact fun i => ⟨fun _ => rfl, fun hi => (nomatch hi), fun hi => (nomatch hi)⟩
  | cons i before ih =>
    have hi := hcount i
    rw [List.count_cons_self] at hi
    have hbefore (j : ι) : before.count j ≤ 2 :=
      Nat.le_trans ((List.sublist_cons_self i before).count_le j) (hcount j)
    exact (ih hbefore).step h hbase (by omega)

/-- **What is left of updates side by side.** Updates of one record, with no name in common, each with a
reading and later a writing access. All of them succeed, and in the end the record holds the values of
exactly those in the chain of `survivors`: for the others it has what was there before. All values are
kept when the updates access the record one after another, and only then all are in the chain. -/
theorem updates_survive (h : Compatible updates) (hbase : Record.Storable id base)
    (hrecord : d.record? entity id = some base) {accesses : List ι}
    (htwice : ∀ i ∈ accesses, accesses.count i = 2) :
    (∀ i ∈ accesses, ∃ new,
      (after entity id updates d accesses).stage i = .done (.ok (.object new))) ∧
    (∃ final, (after entity id updates d accesses).database.record? entity id = some final ∧
      (∀ i ∈ accesses, ∀ name v, (name, v) ∈ (updates i).data →
        final.get? name = if i ∈ survivors accesses then some v else base.get? name) ∧
      (OneByOne accesses → ∀ i ∈ accesses, ∀ name v, (name, v) ∈ (updates i).data →
        final.get? name = some v)) ∧
    ((∀ i ∈ accesses, i ∈ survivors accesses) ↔ OneByOne accesses) := by
  have hcount (i : ι) : accesses.count i ≤ 2 := by
    by_cases hi : i ∈ accesses
    · exact Nat.le_of_eq (htwice i hi)
    · rw [List.count_eq_zero.2 hi]
      exact Nat.zero_le 2
  have hholds := holds_after h hbase hrecord hcount
  have hiff := mem_survivors_iff_oneByOne htwice
  refine ⟨fun i hi => (hholds.stage i).done (htwice i hi), ⟨_, hholds.record, ?_, ?_⟩, hiff⟩
  · exact fun i _ name v hmem => h.get?_changed hmem (survivors accesses)
  · intro horder i hi name v hmem
    rw [h.get?_changed hmem, if_pos (hiff.2 horder i hi)]

end

/-! ### Two updates of a cat -/

/-- A cat, and a database that holds it. -/
def tom : Record := [("id", .text "tom"), ("name", .text "Tom")]

/-- A database with a single record. -/
def catBase : Database where
  entities := ["cats"]
  rows := [⟨1, "cats", "tom", Json.write Json.spaced (.object tom)⟩]
  ordered := List.pairwise_singleton _ _

/-- One update is about the age of the cat, the other about its color. -/
def catUpdates (old : Bool) : RecordUpdate :=
  if old then ⟨Repository.kennelTime 0, [("age", .int 3)]⟩
  else ⟨Repository.kennelTime 1, [("color", .text "red")]⟩

theorem catUpdates_compatible : Compatible catUpdates := by
  constructor
  · decide
  · decide
  · decide
  · decide
  · decide

theorem tom_storable : Record.Storable "tom" tom := ⟨rfl, by decide, by decide⟩

theorem catBase_record : catBase.record? "cats" "tom" = some tom := by
  have hdocument : Json.document (.object tom) = .ok (Json.write Json.spaced (.object tom)) := by
    rw [Json.document, tom_storable.writable]
    rfl
  exact congrArg some (Json.documentFields_document tom_storable.distinct hdocument)

theorem cat_keeps_both :
    ∃ final, (after "cats" "tom" catUpdates catBase [false, false, true, true]).database.record?
        "cats" "tom" = some final ∧
      final.get? "age" = some (.int 3) ∧ final.get? "color" = some (.text "red") := by
  have htwice : ∀ i ∈ [false, false, true, true], [false, false, true, true].count i = 2 := by decide
  obtain ⟨-, ⟨final, hfinal, -, hkept⟩, -⟩ :=
    updates_survive catUpdates_compatible tom_storable catBase_record htwice
  have horder : OneByOne [false, false, true, true] := ⟨[false, true], rfl⟩
  refine ⟨final, hfinal, ?_, ?_⟩
  · exact hkept horder true (by decide) "age" _ List.mem_cons_self
  · exact hkept horder false (by decide) "color" _ List.mem_cons_self

/-- Both updates read before either has written, and the one that writes first is lost. -/
theorem crossed_loses :
    (∀ i ∈ [false, true, false, true], [false, true, false, true].count i = 2) ∧
    ("age", Value.int 3) ∈ (catUpdates true).data ∧
    ∃ final, (after "cats" "tom" catUpdates catBase [false, true, false, true]).database.record?
        "cats" "tom" = some final ∧ final.get? "age" = none := by
  refine ⟨by decide, List.mem_cons_self, ?_⟩
  have hcount : ∀ i, [false, true, false, true].count i ≤ 2 := by decide
  have hholds := holds_after catUpdates_compatible tom_storable catBase_record hcount
  have hchain : survivors [false, true, false, true] = [false] := by
    rw [survivors_write (by decide), show beforeLast false [true, false, true] = [true] from rfl,
      survivors_read (by decide), survivors]
    rfl
  refine ⟨_, hholds.record, ?_⟩
  rw [hchain]
  rfl

end Race

end Workgraph
