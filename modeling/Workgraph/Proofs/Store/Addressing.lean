import Workgraph.Engine.Handler
import Workgraph.Proofs.Store.Identity
/-!
# Records that are asked for by their ids

A query asks for a record by its id in three ways. An update and a deletion take the text of what
they are given; a filter compares what it is given with the ids of records, and these are texts,
also where the data of a record came with a number. So all three mean the same record if they are
given a text, and a filter by a number or a Boolean finds nothing (`Repository.Tidy.addresses`,
`Repository.id_queries_agree_iff`). An integer with more digits than are converted has no text, so no
record is made with it, and an update or a deletion by it breaks down.
-/

namespace Workgraph

/-- Whether a value is a text. -/
def Value.isText : Value → Bool
  | .text _ => true
  | _ => false

/-! ## Lists of records -/

namespace Record

theorem fulfils_id (r : Record) (v : Value) : r.fulfils [("id", v)] = (Record.id r).same v :=
  Bool.and_true _

/-- The id that is drafted is the one in the data. -/
theorem id_draft_of_get? {data : Entries Value} {v : Value}
    (hdata : (Value.object data).isDistinct = true) (h : data.get? "id" = some v)
    (id stamp : String) : Record.id (draft id stamp data) = v := by
  have hmerge : (draft id stamp data).get? "id" = some v :=
    Entries.get?_merge_of_mem (Value.isDistinct_object_iff.1 hdata).1 (Entries.mem_of_get? h) _
  rw [Record.id, hmerge, Option.getD_some]

/-- The id of a new record is the text of the one in its data. -/
theorem id_create_of_get? {data : Entries Value} {v : Value}
    (hdata : (Value.object data).isDistinct = true) (h : data.get? "id" = some v)
    (id stamp : String) : Record.id (create id stamp data) = .text v.shown := by
  rw [create, Record.id, Entries.get?_set_self, Option.getD_some, id_draft_of_get? hdata h]

/-- A record is made from data with an id if the id can be written. -/
theorem ofData_of_get? {data : Entries Value} {v : Value}
    (hdata : (Value.object data).isDistinct = true) (h : data.get? "id" = some v)
    (id stamp : String) : ofData id stamp data =
      if v.hasLongInteger then .error .longInteger else .ok (create id stamp data) := by
  rw [ofData, id_draft_of_get? hdata h]

end Record

namespace OnlyWith

variable {id : String} {old : Record} {front back : List Record}

theorem hasId_eq_false (h : OnlyWith id old front back) : ∀ r ∈ back, r.hasId id = false :=
  fun r hr => h.others r (List.mem_append_right front hr)

theorem filter_hasId (h : OnlyWith id old front back) :
    (front ++ old :: back).filter (fun r => r.hasId id) = [old] := by
  have hnone : ∀ rs : List Record, (∀ r ∈ rs, r.hasId id = false) →
      rs.filter (fun r => r.hasId id) = [] :=
    fun rs hrs => List.filter_eq_nil_iff.2 fun r hr => Bool.eq_false_iff.1 (hrs r hr)
  rw [List.filter_append, List.filter_cons, if_pos h.has, hnone front h.front_eq_false,
    hnone back h.hasId_eq_false, List.nil_append]

theorem filter_not_hasId (h : OnlyWith id old front back) :
    (front ++ old :: back).filter (fun r => !r.hasId id) = front ++ back := by
  have hall : ∀ r ∈ front ++ back, (!r.hasId id) = true := fun r hr => by rw [h.others r hr]; rfl
  rw [List.filter_append, List.filter_cons, h.has, if_neg (by decide), ← List.filter_append,
    List.filter_eq_self.2 hall]

theorem map_hasId (h : OnlyWith id old front back) (new : Record) :
    (front ++ old :: back).map (fun r => if r.hasId id then new else r) =
      front ++ new :: back := by
  have hsame : ∀ rs : List Record, (∀ r ∈ rs, r.hasId id = false) →
      rs.map (fun r => if r.hasId id then new else r) = rs := by
    intro rs hrs
    refine (List.map_congr_left fun r hr => ?_).trans (List.map_id rs)
    rw [hrs r hr]
    rfl
  rw [List.map_append, List.map_cons, if_pos h.has, hsame front h.front_eq_false,
    hsame back h.hasId_eq_false]

end OnlyWith

namespace IdsDistinct

variable {rs : List Record}

/-- The record that is found is the only one with its id. -/
theorem filter_hasId (h : IdsDistinct rs) (id : String) :
    rs.filter (fun r => r.hasId id) = (Memory.find? rs id).toList := by
  cases hfind : Memory.find? rs id with
  | none => exact List.filter_eq_nil_iff.2 (List.find?_eq_none.1 hfind)
  | some old =>
    obtain ⟨front, back, rfl, honly⟩ := h.exists_onlyWith hfind
    exact honly.filter_hasId

/-- A filter by an id finds the record with that id if it is given a text. -/
theorem filter_fulfils (h : IdsDistinct rs) (v : Value) :
    rs.filter (·.fulfils [("id", v)]) =
      if v.isText then (Memory.find? rs v.shown).toList else [] := by
  cases v with
  | text t =>
    have hfulfils : ∀ r ∈ rs, r.fulfils [("id", .text t)] = r.hasId t :=
      fun r _ => r.fulfils_id (.text t)
    rw [List.filter_congr hfulfils]
    exact h.filter_hasId t
  | _ =>
    -- The id of a record is a text, and no other kind of value is the same.
    refine List.filter_eq_nil_iff.2 fun r hr hfulfils => ?_
    obtain ⟨s, hs⟩ := h.texts r hr
    rw [r.fulfils_id, hs] at hfulfils
    cases hfulfils

theorem find?_of_mem (h : IdsDistinct rs) {r : Record} {id : String} (hr : r ∈ rs)
    (hid : Record.id r = .text id) : Memory.find? rs id = some r := by
  have hmem : r ∈ rs.filter (fun r => r.hasId id) :=
    List.mem_filter.2 ⟨hr, (h.hasId_iff hr).2 hid⟩
  rw [h.filter_hasId] at hmem
  exact Option.mem_toList.1 hmem

end IdsDistinct

namespace Memory

theorem mem_replaceFirst {id : String} {new r : Record} : ∀ {rs : List Record},
    r ∈ replaceFirst id new rs → r = new ∨ r ∈ rs
  | [], h => .inr h
  | first :: rest, h => by
    rw [replaceFirst] at h
    split at h
    · exact (List.mem_cons.1 h).imp_right (List.mem_cons_of_mem first)
    · rcases List.mem_cons.1 h with rfl | h
      · exact .inr List.mem_cons_self
      · exact (mem_replaceFirst h).imp_right (List.mem_cons_of_mem first)

theorem mem_of_mem_removeFirst {id : String} {r : Record} : ∀ {rs : List Record},
    r ∈ removeFirst id rs → r ∈ rs
  | [], h => h
  | first :: rest, h => by
    rw [removeFirst] at h
    split at h
    · exact List.mem_cons_of_mem first h
    · rcases List.mem_cons.1 h with rfl | h
      · exact List.mem_cons_self
      · exact List.mem_cons_of_mem first (mem_of_mem_removeFirst h)

end Memory

/-! ## States without equal ids -/

namespace Shelf

/-- A shelf on which all ids are texts. In memory several records may have one id, and a state in
which no two have may be reached through states in which some do; so this is what a run keeps, and
not that the shelf is tidy. In a database it comes to the same. -/
inductive Labelled : Shelf → Prop
  | memory {records : Option (List Record)}
      (texts : ∀ r ∈ records.getD [], ∃ s, Record.id r = .text s) : Labelled (.memory records)
  | database {registered : Bool} {rows : List (String × String)}
      (tidy : Tidy (.database registered rows)) : Labelled (.database registered rows)

variable {sh sh' : Shelf}

theorem Tidy.labelled (h : Tidy sh) : sh.Labelled := by
  cases sh with
  | memory records => exact .memory h.idsDistinct.texts
  | database registered rows => exact .database h

/-- A record that is taken in stands among the others. -/
theorem Tidy.mem_of_insert (h : Tidy sh) (hthere : sh.hasEntity = true) {new : Record} {s : String}
    (hid : Record.id new = .text s) (hdistinct : (Value.object new).isDistinct = true)
    (hok : sh.insert new = .ok sh') : sh'.hasEntity = true ∧ new ∈ sh'.records := by
  have hmem : ∀ rs : List Record, new ∈ Memory.insert rs new :=
    fun rs => List.mem_append_right rs (List.mem_singleton_self new)
  cases h with
  | memory ids =>
    cases hok
    exact ⟨rfl, hmem _⟩
  | database registered hkeep hids =>
    cases hthere
    have htwins := twins_insert hkeep hids hid hdistinct hok
    rw [← htwins.records_eq, ← htwins.hasEntity]
    exact ⟨rfl, hmem _⟩

namespace Labelled

theorem tidy (h : Labelled sh) (hids : (sh.records.map Record.id).Nodup) : sh.Tidy := by
  cases h with
  | memory texts => exact .memory ⟨texts, hids⟩
  | database tidy => exact tidy

/-- **One operation leaves all ids texts.** -/
theorem act (h : Labelled sh) (hthere : sh.hasEntity = true) {action : StoreAction}
    (hdistinct : action.isDistinct = true) (env : Surroundings) (drawn : Nat) :
    (sh.act env drawn action).2.Labelled := by
  cases h with
  | @database registered rows tidy =>
    -- Nothing is asked of what a database takes in.
    have hfresh : TakesFresh env drawn (.database registered rows) action := True.intro
    exact (tidy.act hthere hdistinct env drawn hfresh).labelled
  | @memory records texts =>
    cases action with
    | create data =>
      rw [Shelf.act]
      split
      · exact .memory texts
      · rename_i new hmade
        refine .memory fun r hr => ?_
        rcases List.mem_append.1 hr with hr | hr
        · exact texts r hr
        · rw [List.mem_singleton.1 hr, Record.eq_create_of_ofData hmade]
          exact Record.id_create _ env.stamp data
    | update id data =>
      rw [Shelf.act]
      split
      · rename_i old hold
        refine .memory fun r hr => ?_
        rcases Memory.mem_replaceFirst hr with rfl | hr
        · rw [Record.id_change]
          exact texts old (List.mem_of_find?_eq_some hold)
        · exact texts r hr
      · exact .memory texts
    | delete id =>
      rw [Shelf.act]
      split
      · exact .memory fun r hr => texts r (Memory.mem_of_mem_removeFirst hr)
      · exact .memory texts
    | _ => exact .memory texts

end Labelled

end Shelf

namespace Repository

/-- Whether all ids are texts. -/
def Labelled (r : Repository) : Prop := ∀ entity, (r.store.shelf entity).Labelled

namespace Labelled

variable {r : Repository}

theorem tidy (h : r.Labelled) (hids : r.DistinctIds) : r.Tidy := by
  intro entity
  have hnodup := hids entity
  rw [Store.records_shelf] at hnodup
  exact (h entity).tidy hnodup

theorem register (h : r.Labelled) (env : Surroundings) (entity : String)
    (records : List (Entries Value)) : (r.register env entity records).2.Labelled := by
  obtain ⟨store, drawn⟩ := r
  cases store with
  | memory m =>
    intro other
    rcases register_memory env entity records m drawn with
      ⟨made, drawn', hmade, htexts⟩ | ⟨drawn', hkept⟩
    · rw [hmade, Store.shelf, Memory.setRecords, Memory.records?]
      by_cases heq : other = entity
      · rw [heq, Entries.get?_set_self]
        exact .memory htexts
      · rw [Entries.get?_set_of_ne heq]
        exact h other
    · rw [hkept]
      exact h other
  | database d =>
    have htidy : Tidy ⟨.database d, drawn⟩ := by
      intro other
      cases h other with
      | database tidy => exact tidy
    have hfresh := (allFresh_database [.register env entity records] d drawn).1
    exact fun other => (htidy.register hfresh other).labelled

theorem perform (h : r.Labelled) {s : StoreStep} (hdistinct : s.action.isDistinct = true) :
    (r.perform s.env s.entity s.action).2.Labelled := by
  intro entity
  by_cases hentity : entity = s.entity
  · rw [hentity, (perform_shelf s.env s.entity s.action r).2, Shelf.perform]
    split
    · rename_i hthere
      exact (h s.entity).act hthere hdistinct s.env r.drawn
    · exact h s.entity
  · rw [perform_other hentity]
    exact h entity

/-- **All ids are texts in each state.** -/
theorem states (h : r.Labelled) {changes : List StoreChange}
    (hdistinct : ∀ c ∈ changes, c.isDistinct = true) : ∀ s ∈ r.states changes, s.Labelled := by
  induction changes generalizing r with
  | nil => exact fun s hs => List.mem_singleton.1 hs ▸ h
  | cons c rest ih =>
    obtain ⟨hc, hrest⟩ := List.forall_mem_cons.1 hdistinct
    have hafter : (r.after c).Labelled := by
      cases c with
      | register env entity records => exact h.register env entity records
      | perform s => exact h.perform hc
    exact List.forall_mem_cons.2 ⟨h, ih hafter hrest⟩

end Labelled

end Repository

/-! ## Queries -/

namespace DatabaseQuery

/-- A query asks the store for an action, and its variable gets the answer. -/
def Requests (q : DatabaseQuery) (action : StoreAction) : Prop :=
  ∀ node context, q.process node context = .store ⟨q.entity, action⟩ fun v =>
    .done (context.set (nameOr q.resultVariable "dbResult") v)

/-- What a query gets from a store, and the store that it leaves. -/
def Yields (q : DatabaseQuery) (env : Surroundings) (s : Repository) (answer : Except Fault Value)
    (s' : Repository) : Prop :=
  ∃ action, q.Requests action ∧ s.perform env q.entity action = (answer, s')

/-- A query that is given an id. -/
structure ById (q : DatabaseQuery) (entity : String) (operation : StoreOperation) (v : Value) :
    Prop where
  entity_eq : q.entity = entity
  operation_eq : q.operation = some operation
  id_eq : (q.filter.getD []).get? "id" = some v

/-- A filter by an id alone. -/
structure FiltersById (q : DatabaseQuery) (entity : String) (v : Value) : Prop where
  entity_eq : q.entity = entity
  operation_eq : q.operation = some .filter
  filter_eq : q.filter = some [("id", v)]

/-- A query that creates a record from data with an id. -/
structure CreatesWith (q : DatabaseQuery) (entity : String) (v : Value) : Prop where
  entity_eq : q.entity = entity
  operation_eq : q.operation = some .create
  id_eq : (q.data.getD []).get? "id" = some v

variable {q : DatabaseQuery} {entity : String} {v : Value}

theorem requests_of_action {action : StoreAction} (h : ∀ node, q.action node = .ok action) :
    q.Requests action := by
  intro node context
  rw [process, h node]

theorem Requests.unique {a b : StoreAction} (ha : q.Requests a) (hb : q.Requests b) : a = b := by
  have hsame := (ha "" []).symm.trans (hb "" [])
  injection hsame with hrequest
  injection hrequest

theorem Yields.unique {env : Surroundings} {s s' t : Repository} {a b : Except Fault Value}
    (ha : q.Yields env s a s') (hb : q.Yields env s b t) : a = b := by
  obtain ⟨action, hrequests, hperform⟩ := ha
  obtain ⟨other, hrequests', hperform'⟩ := hb
  rw [hrequests.unique hrequests'] at hperform
  exact congrArg Prod.fst (hperform.symm.trans hperform')

/-- An id that is neither null nor empty is asked for by its text, if it has one. -/
theorem ById.requests_delete (h : q.ById entity .delete v) (hnull : v ≠ .null)
    (hempty : v ≠ .text "") (hshort : v.hasLongInteger = false) : q.Requests (.delete v.shown) := by
  refine requests_of_action fun node => ?_
  unfold action
  simp only [h.operation_eq, h.id_eq, Option.getD_some, hshort, Bool.false_eq_true, if_false]

theorem ById.requests_update (h : q.ById entity .update v) (hnull : v ≠ .null)
    (hempty : v ≠ .text "") (hshort : v.hasLongInteger = false) :
    q.Requests (.update v.shown (q.data.getD [])) := by
  refine requests_of_action fun node => ?_
  unfold action
  simp only [h.operation_eq, h.id_eq, Option.getD_some, hshort, Bool.false_eq_true, if_false]

/-- By an id that has no text nothing is asked for. -/
theorem ById.requests_refuse {operation : StoreOperation} (h : q.ById entity operation v)
    (hoperation : operation = .delete ∨ operation = .update) (hlong : v.hasLongInteger = true) :
    q.Requests (.refuse .longInteger) := by
  have hnull : v ≠ .null := by
    rintro rfl
    cases hlong
  have hempty : v ≠ .text "" := by
    rintro rfl
    cases hlong
  refine requests_of_action fun node => ?_
  unfold action
  rcases hoperation with rfl | rfl <;>
    simp only [h.operation_eq, h.id_eq, Option.getD_some, hlong, if_true]

theorem FiltersById.requests (h : q.FiltersById entity v) : q.Requests (.filter [("id", v)]) := by
  refine requests_of_action fun node => ?_
  unfold action
  simp only [h.operation_eq, h.filter_eq, Option.getD_some]

theorem CreatesWith.requests (h : q.CreatesWith entity v) :
    q.Requests (.create (q.data.getD [])) := by
  refine requests_of_action fun node => ?_
  unfold action
  simp only [h.operation_eq]

end DatabaseQuery

namespace Repository

/-! ## Answers -/

/-- Updates and deletions by an id act on the only record with the text of the id, or there is none
and they do nothing. An update can fail, since a database does not write everything. An id without a
text means no record: updates and deletions by it break down, and no record is made with it. -/
inductive ActsOn (env : Surroundings) (s : Repository) (entity : String) (v : Value) :
    Option Record → Prop
  | unwritten
      (long : v.hasLongInteger = true)
      (deletes : ∀ q : DatabaseQuery, q.ById entity .delete v →
        q.Yields env s (.error (.defect .longInteger)) s)
      (updates : ∀ q : DatabaseQuery, q.ById entity .update v →
        q.Yields env s (.error (.defect .longInteger)) s)
      (creates : ∀ q : DatabaseQuery, q.CreatesWith entity v →
        (Value.object (q.data.getD [])).isDistinct = true →
        ∃ s', q.Yields env s (.error (.defect .longInteger)) s' ∧ s'.store = s.store) :
      ActsOn env s entity v none
  | none
      (only : (s.store.records entity).filter (fun r => r.hasId v.shown) = [])
      (deletes : ∀ q : DatabaseQuery, q.ById entity .delete v → q.Yields env s (.ok .null) s)
      (updates : ∀ q : DatabaseQuery, q.ById entity .update v → q.Yields env s (.ok .null) s) :
      ActsOn env s entity v none
  | some {old : Record}
      (only : (s.store.records entity).filter (fun r => r.hasId v.shown) = [old])
      (deletes : ∀ q : DatabaseQuery, q.ById entity .delete v →
        ∃ s', q.Yields env s (.ok (.object old)) s' ∧ s'.store.records entity =
          (s.store.records entity).filter fun r => !r.hasId v.shown)
      (updates : ∀ q : DatabaseQuery, q.ById entity .update v →
        (Value.object (q.data.getD [])).isDistinct = true →
        (∃ d, q.Yields env s (.error (.defect d)) s) ∨
        ∃ s' new, new = old.change env.stamp (q.data.getD []) ∧
          q.Yields env s (.ok (.object new)) s' ∧ s'.store.records entity =
            (s.store.records entity).map fun r => if r.hasId v.shown then new else r) :
      ActsOn env s entity v (some old)

/-- What queries by an id come to: updates and deletions act on a record or on none, and a filter
finds that record if the id is a text, and nothing otherwise. -/
structure Addresses (env : Surroundings) (s : Repository) (entity : String) (v : Value)
    (target : Option Record) : Prop where
  acts : ActsOn env s entity v target
  filters : ∀ q : DatabaseQuery, q.FiltersById entity v →
    q.Yields env s (.ok (.list (if v.isText then target.toList.map .object else []))) s

section
variable {s : Repository} {entity : String} {v : Value}

theorem Tidy.find?_records (h : s.Tidy) (entity id : String) :
    s.store.record? entity id = Memory.find? (s.store.records entity) id := by
  rw [Store.records_shelf, Store.record?_shelf]
  have hshelf := h entity
  generalize s.store.shelf entity = sh at hshelf
  cases hshelf with
  | memory ids => rfl
  | database registered hkeep hids =>
    rw [Shelf.records, Shelf.map_data hkeep]
    exact (Shelf.record?_eq hkeep id).symm

theorem Tidy.idsDistinct (h : s.Tidy) (entity : String) :
    IdsDistinct (s.store.records entity) := by
  rw [Store.records_shelf]
  exact (h entity).idsDistinct

/-- An id that no record has means nothing. -/
theorem perform_missing (env : Surroundings) (hthere : s.store.hasEntity entity = true)
    {id : String} (hold : s.store.record? entity id = none) :
    s.perform env entity (.delete id) = (.ok .null, s) ∧
      ∀ data, s.perform env entity (.update id data) = (.ok .null, s) := by
  constructor
  · rw [perform, if_pos hthere]
    simp only [act, Repository.delete, hold]
  · intro data
    rw [perform, if_pos hthere]
    simp only [act, Repository.update, hold]

theorem perform_delete_some (env : Surroundings) (hthere : s.store.hasEntity entity = true)
    {id : String} {old : Record} (hold : s.store.record? entity id = some old) :
    s.perform env entity (.delete id) =
      (.ok (.object old), { s with store := s.store.remove entity id }) := by
  rw [perform, if_pos hthere]
  simp only [act, Repository.delete, hold]

theorem perform_update_some (env : Surroundings) (hthere : s.store.hasEntity entity = true)
    {id : String} {old : Record} (hold : s.store.record? entity id = some old)
    (data : Entries Value) :
    (∃ d, s.perform env entity (.update id data) = (.error (.defect d), s)) ∨
      ∃ s', s.perform env entity (.update id data) =
        (.ok (.object (old.change env.stamp data)), s') := by
  rw [perform, if_pos hthere]
  simp only [act, Repository.update, hold]
  cases s.store.replace entity id (old.change env.stamp data) with
  | error d => exact .inl ⟨d, rfl⟩
  | ok store => exact .inr ⟨_, rfl⟩

/-- No record is made with an id that has no text. -/
theorem perform_create_long (env : Surroundings) (hthere : s.store.hasEntity entity = true)
    (hlong : v.hasLongInteger = true) {data : Entries Value}
    (hdata : (Value.object data).isDistinct = true) (hid : data.get? "id" = some v) :
    s.perform env entity (.create data) =
      (.error (.defect .longInteger), { s with drawn := s.drawn + 1 }) := by
  rw [perform, if_pos hthere]
  simp only [act, Repository.create, Record.ofData_of_get? hdata hid, hlong, if_true]

/-- What is asked for by an id that has no text. -/
theorem actsOn_of_long (hthere : s.store.hasEntity entity = true) (hlong : v.hasLongInteger = true)
    (env : Surroundings) : ActsOn env s entity v none := by
  have hrefuse : s.perform env entity (.refuse .longInteger) =
      (.error (.defect .longInteger), s) := by
    rw [perform, if_pos hthere]
    rfl
  refine .unwritten hlong (fun q hq => ?deletes) (fun q hq => ?updates) (fun q hq hdata => ?creates)
  case deletes => exact ⟨_, hq.requests_refuse (.inl rfl) hlong, hq.entity_eq ▸ hrefuse⟩
  case updates => exact ⟨_, hq.requests_refuse (.inr rfl) hlong, hq.entity_eq ▸ hrefuse⟩
  case creates =>
    have hperform := perform_create_long env hthere hlong hdata hq.id_eq
    rw [← hq.entity_eq] at hperform
    exact ⟨_, ⟨_, hq.requests, hperform⟩, rfl⟩

/-- **What an update and a deletion by an id act on.** -/
theorem Tidy.actsOn (h : s.Tidy) (hthere : s.store.hasEntity entity = true) (hnull : v ≠ .null)
    (hempty : v ≠ .text "") (hshort : v.hasLongInteger = false) (env : Surroundings) :
    ActsOn env s entity v (s.store.record? entity v.shown) := by
  have honly := (h.idsDistinct entity).filter_hasId v.shown
  rw [← h.find?_records] at honly
  cases hold : s.store.record? entity v.shown with
  | none =>
    rw [hold] at honly
    obtain ⟨hdelete, hupdate⟩ := perform_missing env hthere hold
    refine .none honly (fun q hq => ?_) (fun q hq => ?_)
    · refine ⟨_, hq.requests_delete hnull hempty hshort, ?_⟩
      rw [hq.entity_eq, hdelete]
    · refine ⟨_, hq.requests_update hnull hempty hshort, ?_⟩
      rw [hq.entity_eq, hupdate]
  | some old =>
    rw [hold] at honly
    refine .some honly (fun q hq => ?deletes) (fun q hq hdata => ?updates)
    case deletes =>
      have hperform := perform_delete_some env hthere hold
      obtain ⟨front, back, hrecords, hunique, hafter⟩ := h.delete (congrArg Prod.fst hperform)
      rw [hperform] at hafter
      rw [← hq.entity_eq] at hperform
      refine ⟨_, ⟨_, hq.requests_delete hnull hempty hshort, hperform⟩, ?_⟩
      rw [hq.entity_eq, hafter, hrecords, hunique.filter_not_hasId]
    case updates =>
      rcases perform_update_some env hthere hold (q.data.getD []) with
        ⟨d, hperform⟩ | ⟨s', hperform⟩
      · exact .inl ⟨d, _, hq.requests_update hnull hempty hshort, hq.entity_eq ▸ hperform⟩
      · obtain ⟨found, front, back, hrecords, hunique, hnew, hafter⟩ :=
          h.update hdata (congrArg Prod.fst hperform)
        rw [hperform] at hafter
        refine .inr ⟨s', _, rfl, ⟨_, hq.requests_update hnull hempty hshort, hq.entity_eq ▸ hperform⟩, ?_⟩
        rw [hafter, hrecords, hunique.map_hasId]

/-- The record that an id means, if it has a text. -/
def target? (s : Repository) (entity : String) (v : Value) : Option Record :=
  if v.hasLongInteger then none else s.store.record? entity v.shown

/-- **What queries by an id come to.** -/
theorem Tidy.addresses (h : s.Tidy) (hthere : s.store.hasEntity entity = true) (hnull : v ≠ .null)
    (hempty : v ≠ .text "") (env : Surroundings) :
    Addresses env s entity v (s.target? entity v) := by
  have hfilters : ∀ q : DatabaseQuery, q.FiltersById entity v → q.Yields env s (.ok (.list
      (if v.isText then (s.store.record? entity v.shown).toList.map .object else []))) s := by
    intro q hq
    refine ⟨_, hq.requests, ?_⟩
    rw [hq.entity_eq, Repository.perform, if_pos hthere]
    simp only [act, (h.idsDistinct entity).filter_fulfils, ← h.find?_records]
    split <;> rfl
  cases hlong : v.hasLongInteger with
  | false =>
    rw [target?, hlong, if_neg Bool.false_ne_true]
    exact ⟨h.actsOn hthere hnull hempty hlong env, hfilters⟩
  | true =>
    rw [target?, hlong, if_pos rfl]
    refine ⟨actsOn_of_long hthere hlong env, fun q hq => ?_⟩
    -- Such a value is no text, so that a filter by it finds nothing.
    have htext : v.isText = false := by
      cases v with
      | text t => cases hlong
      | _ => rfl
    have hyields := hfilters q hq
    rw [htext] at hyields ⊢
    exact hyields

/-- A record that is created stands among the others, under the text of the id in its data. -/
theorem Tidy.created (h : s.Tidy) {env : Surroundings} {data : Entries Value}
    (hdata : (Value.object data).isDistinct = true) (hid : data.get? "id" = some v) {new : Record}
    (hok : (s.perform env entity (.create data)).1 = .ok (.object new)) :
    v.hasLongInteger = false ∧ Record.id new = .text v.shown ∧
      (s.perform env entity (.create data)).2.store.hasEntity entity = true ∧
      new ∈ (s.perform env entity (.create data)).2.store.records entity := by
  obtain ⟨hthere, hact, hafter⟩ := perform_ok hok
  have hshelf := (perform_shelf env entity (.create data) s).2
  rw [Shelf.perform, if_pos hthere] at hshelf
  rw [Store.hasEntity_shelf, hshelf, hafter]
  have hmade := Record.ofData_of_get? hdata hid (env.freshId (s.drawn + 1)) env.stamp
  cases hlong : v.hasLongInteger with
  | true =>
    rw [hlong, if_pos rfl] at hmade
    simp only [Shelf.act, hmade] at hact
    cases hact
  | false =>
    rw [hlong, if_neg Bool.false_ne_true] at hmade
    cases hinsert : (s.store.shelf entity).insert
        (Record.create (env.freshId (s.drawn + 1)) env.stamp data) with
    | error d =>
      simp only [Shelf.act, hmade, hinsert] at hact
      cases hact
    | ok sh =>
      simp only [Shelf.act, hmade, hinsert] at hact ⊢
      cases hact
      have hnew := Record.id_create_of_get? hdata hid (env.freshId (s.drawn + 1)) env.stamp
      have hdistinct := Record.isDistinct_create hdata (env.freshId (s.drawn + 1)) env.stamp
      exact ⟨trivial, hnew, (h entity).mem_of_insert hthere hnew hdistinct hinsert⟩

/-- A filter finds what updates and deletions act on if the id is a text, or if they act on nothing.
-/
theorem Addresses.agrees_iff {env : Surroundings} {target : Option Record}
    (h : Addresses env s entity v target) :
    (∀ q : DatabaseQuery, q.FiltersById entity v →
      q.Yields env s (.ok (.list (target.toList.map .object))) s) ↔
    v.isText = true ∨ target = none := by
  constructor
  · intro hagrees
    have hq : DatabaseQuery.FiltersById ⟨entity, some .filter, some [("id", v)], none, none⟩ entity
        v := ⟨rfl, rfl, rfl⟩
    have hanswer := (hagrees _ hq).unique (h.filters _ hq)
    cases htext : v.isText with
    | true => exact .inl rfl
    | false =>
      rw [htext] at hanswer
      cases target with
      | none => exact .inr rfl
      | some old => cases hanswer
  · rintro (htext | rfl) q hq
    · have hyields := h.filters q hq
      rwa [htext] at hyields
    · have hyields := h.filters q hq
      rwa [Option.toList_none, List.map_nil, ite_self] at hyields

end

/-- **Queries by an id mean the same record just if the id is a text, or if there is no such
record.** A store starts empty and goes through any changes to a state in which ids are distinct.
Then updates and deletions by an id act on the only record with its text, also on one that has just
been created from data with that id; a filter finds that record if the id is a text, and nothing
otherwise. An id without a text, which is an integer with more digits than are converted, means no
record. -/
theorem id_queries_agree_iff {r : Repository}
    (hempty : r.store = .memory .empty ∨ r.store = .database .empty) {changes : List StoreChange}
    (hdistinct : ∀ c ∈ changes, c.isDistinct = true) {s : Repository} (hs : s ∈ r.states changes)
    (hids : s.DistinctIds) {entity : String} (hthere : s.store.hasEntity entity = true) {v : Value}
    (hnull : v ≠ .null) (hblank : v ≠ .text "") (env : Surroundings) :
    (∃ target, Addresses env s entity v target ∧
      ((∀ q : DatabaseQuery, q.FiltersById entity v →
          q.Yields env s (.ok (.list (target.toList.map .object))) s) ↔
        v.isText = true ∨ target = none)) ∧
    ∀ (q : DatabaseQuery) new s', q.CreatesWith entity v →
      (Value.object (q.data.getD [])).isDistinct = true →
      q.Yields env s (.ok (.object new)) s' → s'.DistinctIds →
      ∀ later, Addresses later s' entity v (some new) := by
  have hstart : r.Labelled := fun other => (tidy_of_empty hempty other).labelled
  have hlabelled := hstart.states hdistinct s hs
  have htidy := hlabelled.tidy hids
  have haddresses := htidy.addresses hthere hnull hblank env
  refine ⟨⟨_, haddresses, haddresses.agrees_iff⟩, ?_⟩
  rintro q new s' hq hdata ⟨action, hrequests, hperform⟩ hids' later
  obtain rfl := hrequests.unique hq.requests
  rw [hq.entity_eq] at hperform
  obtain ⟨hshort, hid, hthere', hmem⟩ := htidy.created hdata hq.id_eq (congrArg Prod.fst hperform)
  -- The store with the new record is a state like the one before.
  have hlabelled' := hlabelled.perform (s := ⟨env, entity, .create (q.data.getD [])⟩) hdata
  rw [hperform] at hthere' hmem hlabelled'
  have htidy' := hlabelled'.tidy hids'
  have haddresses' := htidy'.addresses hthere' hnull hblank later
  rwa [target?, hshort, if_neg Bool.false_ne_true, htidy'.find?_records,
    (htidy'.idsDistinct entity).find?_of_mem hmem hid] at haddresses'

/-- A dog comes with a number as its id. -/
def numberedDog : List StoreChange :=
  [.register (kennelTime 0) "dogs" [], .perform ⟨kennelTime 1, "dogs", .create [("id", .int 5)]⟩]

/-- The store with that dog. -/
def numberedKennel : Repository := numberedDog.foldl after ⟨.memory .empty, 0⟩

theorem distinctIds_numberedKennel : numberedKennel.DistinctIds := by
  intro entity
  by_cases hdogs : "dogs" = entity
  · rw [← hdogs]
    exact List.nodup_singleton (Value.text "5")
  · have hnone : numberedKennel.store.records entity = [] :=
      congrArg (Option.getD · []) (if_neg hdogs)
    rw [hnone]
    exact List.nodup_nil

theorem numberedKennel_mem : numberedKennel ∈ states numberedDog ⟨.memory .empty, 0⟩ :=
  List.mem_of_getLast? rfl

/-- Updates and deletions find that dog by its number. -/
theorem numberedDog_addressed :
    ∃ target, Addresses (kennelTime 2) numberedKennel "dogs" (.int 5) target ∧
      ((∀ q : DatabaseQuery, q.FiltersById "dogs" (.int 5) →
          q.Yields (kennelTime 2) numberedKennel (.ok (.list (target.toList.map .object)))
            numberedKennel) ↔
        (Value.int 5).isText = true ∨ target = none) :=
  (id_queries_agree_iff (.inl rfl) (by decide) numberedKennel_mem distinctIds_numberedKennel rfl
    Value.noConfusion Value.noConfusion (kennelTime 2)).1

/-- The dog can be deleted by its number, but a filter by that number does not find it. -/
theorem numberedDog_not_found :
    ¬ ∀ (q p : DatabaseQuery) old s', q.ById "dogs" .delete (.int 5) →
      q.Yields (kennelTime 2) numberedKennel (.ok (.object old)) s' →
      p.FiltersById "dogs" (.int 5) →
      p.Yields (kennelTime 2) numberedKennel (.ok (.list [.object old])) numberedKennel := by
  intro h
  have hdelete : DatabaseQuery.ById ⟨"dogs", some .delete, some [("id", .int 5)], none, none⟩ "dogs"
      .delete (.int 5) := ⟨rfl, rfl, rfl⟩
  have hfilter : DatabaseQuery.FiltersById
      ⟨"dogs", some .filter, some [("id", .int 5)], none, none⟩ "dogs" (.int 5) := ⟨rfl, rfl, rfl⟩
  have hdeleted := hdelete.requests_delete Value.noConfusion Value.noConfusion (by decide)
  obtain ⟨action, hrequests, hperform⟩ := h _ _ _ _ hdelete ⟨_, hdeleted, rfl⟩ hfilter
  obtain rfl := hrequests.unique hfilter.requests
  cases hperform

end Repository

end Workgraph
