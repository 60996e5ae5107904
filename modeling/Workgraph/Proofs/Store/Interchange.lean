import Mathlib.Tactic
import Workgraph.Proofs.Store.Shelf
import Workgraph.Proofs.Value.RoundTrip
/-!
# Interchangeable stores

A store in memory and a database that start with the same empty entities go through the same
operations side by side. As long as the database performs each of them, both give the same answers
and hold the same records, field by field and in the same order (`Repository.interchangeable`). What
ties them together is that each row of the database spells the record in the same place in memory,
under the id of that record, and that no two rows of an entity have the same id.
-/

namespace Workgraph

namespace Record

/-- A new record has a text as its id. -/
theorem id_create (id stamp : String) (data : Entries Value) :
    ∃ s, Record.id (create id stamp data) = .text s := by
  have hid (r : Record) (s : String) : Record.id (r.set "id" (.text s)) = .text s := by
    rw [Record.id, Entries.get?_set_self]
    rfl
  exact ⟨_, hid _ _⟩

/-- A record that is made from data is a new one. -/
theorem eq_create_of_ofData {id stamp : String} {data : Entries Value} {new : Record}
    (h : ofData id stamp data = .ok new) : new = create id stamp data := by
  rw [ofData] at h
  split_ifs at h
  cases h
  rfl

/-- A change leaves the id. -/
theorem id_change (r : Record) (stamp : String) (data : Entries Value) :
    Record.id (r.change stamp data) = Record.id r := by
  have hne : "id" ≠ "updated_date" := by decide
  rw [Record.id, Record.id, change, Entries.get?_set_of_ne hne,
    Entries.get?_merge_of_not_mem (Entries.not_mem_without data "id")]

theorem hasId_of_id {r : Record} {s : String} (h : Record.id r = .text s) (id : String) :
    r.hasId id = decide (s = id) := by
  rw [hasId, h]
  rfl

end Record

namespace Shelf

/-! ## Rows and records -/

/-- A row spells a record under the id of that record. -/
structure Keeps (row : String × String) (r : Record) : Prop where
  data : Json.documentFields row.2 = r
  id : Record.id r = .text row.1
  distinct : (Value.object r).isDistinct = true

variable {rows : List (String × String)} {rs : List Record} {id : String}

/-- A row that is written for a record spells it. -/
theorem Keeps.of_document {r : Record} {s document : String} (hid : Record.id r = .text s)
    (hdistinct : (Value.object r).isDistinct = true)
    (h : Json.document (.object r) = .ok document) : Keeps (s, document) r :=
  ⟨Json.documentFields_document hdistinct h, hid, hdistinct⟩

theorem map_data (h : List.Forall₂ Keeps rows rs) :
    rows.map (fun row => Json.documentFields row.2) = rs := by
  induction h with
  | nil => rfl
  | cons hrow _ ih => rw [List.map_cons, hrow.data, ih]

/-- The row with an id spells the record with that id. -/
theorem find?_rows (h : List.Forall₂ Keeps rows rs) (id : String) :
    Option.Rel Keeps (rows.find? fun row => row.1 = id) (Memory.find? rs id) := by
  induction h with
  | nil => exact .none
  | @cons row r _ _ hrow _ ih =>
    rw [Memory.find?, List.find?_cons, List.find?_cons, Record.hasId_of_id hrow.id]
    by_cases hid : row.1 = id
    · rw [decide_eq_true hid]
      exact .some hrow
    · rw [decide_eq_false hid]
      exact ih

/-- Rewriting the row with an id is replacing the record with that id. -/
theorem rewrite_rows (h : List.Forall₂ Keeps rows rs) (hids : (rows.map Prod.fst).Nodup)
    {new : Record} {document : String} (hnew : Keeps (id, document) new) :
    List.Forall₂ Keeps (rows.map fun row => if row.1 = id then (row.1, document) else row)
      (Memory.replaceFirst id new rs) := by
  induction h with
  | nil => exact .nil
  | @cons row r rest rs hrow hrest ih =>
    obtain ⟨hfirst, hids⟩ := List.nodup_cons.1 hids
    rw [List.map_cons, Memory.replaceFirst, Record.hasId_of_id hrow.id]
    by_cases hid : row.1 = id
    · subst hid
      -- No other row has the id, so the rest stays as it is.
      have hsame : (rest.map fun other => if other.1 = row.1 then (other.1, document) else other) =
          rest := by
        have hkept : ∀ other ∈ rest,
            (if other.1 = row.1 then (other.1, document) else other) = other := by
          intro other hother
          have hne : other.1 ≠ row.1 := fun heq => hfirst (heq ▸ List.mem_map_of_mem hother)
          rw [if_neg hne]
        rw [List.map_congr_left hkept, List.map_id']
      rw [if_pos rfl, if_pos (decide_eq_true rfl), hsame]
      exact .cons hnew hrest
    · rw [if_neg hid, if_neg (by simpa using hid)]
      exact .cons hrow (ih hids)

/-- Removing the row with an id is removing the record with that id. -/
theorem remove_rows (h : List.Forall₂ Keeps rows rs) (hids : (rows.map Prod.fst).Nodup)
    (id : String) :
    List.Forall₂ Keeps (rows.filter fun row => !decide (row.1 = id))
      (Memory.removeFirst id rs) := by
  induction h with
  | nil => exact .nil
  | @cons row r rest rs hrow hrest ih =>
    obtain ⟨hfirst, hids⟩ := List.nodup_cons.1 hids
    rw [List.filter_cons, Memory.removeFirst, Record.hasId_of_id hrow.id]
    by_cases hid : row.1 = id
    · subst hid
      -- In memory only the first is removed, but no other row has the id.
      have hsame : (rest.filter fun other => !decide (other.1 = row.1)) = rest := by
        rw [List.filter_eq_self]
        intro other hother
        have hne : other.1 ≠ row.1 := fun heq => hfirst (heq ▸ List.mem_map_of_mem hother)
        simpa using hne
      rw [if_neg (by simp), if_pos (decide_eq_true rfl), hsame]
      exact hrest
    · rw [if_pos (by simpa using hid), if_neg (by simpa using hid)]
      exact .cons hrow (ih hids)

/-! ## One operation -/

/-- The shelves of an entity in memory and in the database: the entity is in neither, or each of its
rows spells the record in the same place. -/
inductive Twins : Shelf → Shelf → Prop
  | absent : Twins (.memory none) (.database false [])
  | present {rows : List (String × String)} {rs : List Record}
      (rows_keep : List.Forall₂ Keeps rows rs) (distinct_ids : (rows.map Prod.fst).Nodup) :
      Twins (.memory (some rs)) (.database true rows)

theorem Twins.hasEntity {m d : Shelf} (h : Twins m d) : m.hasEntity = d.hasEntity := by
  cases h <;> rfl

theorem Twins.records_eq {m d : Shelf} (h : Twins m d) : m.records = d.records := by
  cases h with
  | absent => rfl
  | present hkeep _ => exact (map_data hkeep).symm

variable {d' : Shelf} {new : Record}

/-- A record that the database takes in gets a row at the end, under an id that no row has. -/
theorem insert_ok {s : String} (hid : Record.id new = .text s)
    (h : (database true rows).insert new = .ok d') :
    ∃ document, Json.document (.object new) = .ok document ∧ s ∉ rows.map Prod.fst ∧
      d' = database true (rows ++ [(s, document)]) := by
  have hshown : (Record.id new).shown = s := by
    rw [hid]
    rfl
  simp only [insert, hshown] at h
  cases hdocument : Json.document (.object new) with
  | error defect =>
    rw [hdocument] at h
    cases h
  | ok document =>
    simp only [hdocument, bind, Except.bind] at h
    split at h
    · cases h
    · rename_i htaken
      cases h
      refine ⟨document, rfl, fun hs => htaken ?_, rfl⟩
      obtain ⟨row, hrow, rfl⟩ := List.mem_map.1 hs
      exact List.any_eq_true.2 ⟨row, hrow, decide_eq_true rfl⟩

theorem replace_ok (h : (database true rows).replace id new = .ok d') :
    ∃ document, Json.document (.object new) = .ok document ∧
      d' = database true (rows.map fun row => if row.1 = id then (row.1, document) else row) := by
  simp only [replace] at h
  cases hdocument : Json.document (.object new) with
  | error defect =>
    rw [hdocument] at h
    cases h
  | ok document =>
    rw [hdocument] at h
    cases h
    exact ⟨document, rfl, rfl⟩

theorem twins_insert (hkeep : List.Forall₂ Keeps rows rs) (hids : (rows.map Prod.fst).Nodup)
    {s : String} (hid : Record.id new = .text s) (hnew : (Value.object new).isDistinct = true)
    (h : (database true rows).insert new = .ok d') :
    Twins (.memory (some (Memory.insert rs new))) d' := by
  obtain ⟨document, hdocument, hfresh, rfl⟩ := insert_ok hid h
  refine .present (List.rel_append hkeep (.cons (.of_document hid hnew hdocument) .nil)) ?_
  rw [List.map_append, List.nodup_append]
  refine ⟨hids, List.pairwise_singleton _ _, ?_⟩
  intro k hk n hn heq
  rw [List.map_singleton, List.mem_singleton] at hn
  rw [heq, hn] at hk
  exact hfresh hk

theorem twins_replace (hkeep : List.Forall₂ Keeps rows rs) (hids : (rows.map Prod.fst).Nodup)
    (hid : Record.id new = .text id) (hnew : (Value.object new).isDistinct = true)
    (h : (database true rows).replace id new = .ok d') :
    Twins (.memory (some (Memory.replaceFirst id new rs))) d' := by
  obtain ⟨document, hdocument, rfl⟩ := replace_ok h
  refine .present (rewrite_rows hkeep hids (.of_document hid hnew hdocument)) ?_
  have hsame : (rows.map fun row => if row.1 = id then (row.1, document) else row).map Prod.fst =
      rows.map Prod.fst := by
    rw [List.map_map]
    apply List.map_congr_left
    intro row _
    rw [Function.comp_apply]
    split <;> rfl
  rwa [hsame]

theorem twins_remove (hkeep : List.Forall₂ Keeps rows rs) (hids : (rows.map Prod.fst).Nodup)
    (id : String) :
    Twins (.memory (some (Memory.removeFirst id rs))) ((database true rows).remove id) :=
  .present (remove_rows hkeep hids id) (hids.sublist (List.filter_sublist.map Prod.fst))

/-- Both find the same record with an id. -/
theorem record?_eq (hkeep : List.Forall₂ Keeps rows rs) (id : String) :
    (Shelf.memory (some rs)).record? id = (database true rows).record? id := by
  have hrel := find?_rows hkeep id
  simp only [record?, Option.getD_some]
  generalize (rows.find? fun row => decide (row.1 = id)) = row at hrel ⊢
  generalize Memory.find? rs id = r at hrel ⊢
  cases hrel with
  | none => rfl
  | some hrow => exact congrArg some hrow.data.symm

/-- What the database finds with an id has that id. -/
theorem keeps_of_record? (hkeep : List.Forall₂ Keeps rows rs) {old : Record}
    (h : (database true rows).record? id = some old) :
    Record.id old = .text id ∧ (Value.object old).isDistinct = true := by
  have hrel := find?_rows hkeep id
  simp only [record?] at h
  cases hrow : rows.find? fun row => decide (row.1 = id) with
  | none =>
    rw [hrow] at h
    cases h
  | some row =>
    rw [hrow] at h hrel
    generalize Memory.find? rs id = r at hrel
    cases hrel with
    | @some _ r hrow' =>
      have hid : row.1 = id :=
        of_decide_eq_true
          (List.find?_some (p := fun row : String × String => decide (row.1 = id)) hrow)
      cases h
      have hdata : Json.documentFields row.2 = r := hrow'.data
      simp only [hdata]
      exact ⟨hid ▸ hrow'.id, hrow'.distinct⟩

end Shelf

/-- Whether the data of an operation has no name twice in any object. -/
def StoreAction.isDistinct : StoreAction → Bool
  | .create data | .update _ data => (Value.object data).isDistinct
  | _ => true

namespace Shelf

/-- **What the database performs, the store in memory performs with the same answer.** -/
theorem Twins.act {m d d' : Shelf} {v : Value} (h : Twins m d) {action : StoreAction}
    (hdistinct : action.isDistinct = true) (env : Surroundings) (drawn : Nat)
    (hthere : d.hasEntity = true) (hok : d.act env drawn action = (.ok v, d')) :
    ∃ m', m.act env drawn action = (.ok v, m') ∧ Twins m' d' := by
  cases h with
  | absent => cases hthere
  | @present rows rs hkeep hids =>
    have hrecords := (Twins.present hkeep hids).records_eq
    cases action with
    | find =>
      cases hok
      exact ⟨_, rfl, .present hkeep hids⟩
    | refuse cause => cases hok
    | list =>
      cases hok
      refine ⟨_, ?_, .present hkeep hids⟩
      rw [Shelf.act, hrecords]
    | filter criteria =>
      cases hok
      refine ⟨_, ?_, .present hkeep hids⟩
      rw [Shelf.act, hrecords]
    | create data =>
      obtain ⟨s, hid⟩ := Record.id_create (env.freshId (drawn + 1)) env.stamp data
      have hnew := Record.isDistinct_create hdistinct (env.freshId (drawn + 1)) env.stamp
      simp only [Shelf.act] at hok ⊢
      cases hmade : Record.ofData (env.freshId (drawn + 1)) env.stamp data with
      | error defect =>
        rw [hmade] at hok
        cases hok
      | ok record =>
        obtain rfl := Record.eq_create_of_ofData hmade
        simp only [hmade] at hok
        split at hok
        · rename_i h' hinsert
          cases hok
          exact ⟨_, rfl, twins_insert hkeep hids hid hnew hinsert⟩
        · cases hok
    | update id data =>
      simp only [Shelf.act, record?_eq hkeep] at hok ⊢
      cases hrecord : (database true rows).record? id with
      | none =>
        rw [hrecord] at hok
        cases hok
        exact ⟨_, rfl, .present hkeep hids⟩
      | some old =>
        obtain ⟨hid, hold⟩ := keeps_of_record? hkeep hrecord
        have hnew := Record.isDistinct_change hold hdistinct env.stamp
        simp only [hrecord] at hok
        split at hok
        · rename_i h' hreplace
          cases hok
          exact ⟨_, rfl, twins_replace hkeep hids ((Record.id_change old _ data).trans hid) hnew
            hreplace⟩
        · cases hok
    | delete id =>
      simp only [Shelf.act, record?_eq hkeep] at hok ⊢
      cases hrecord : (database true rows).record? id with
      | none =>
        rw [hrecord] at hok
        cases hok
        exact ⟨_, rfl, .present hkeep hids⟩
      | some old =>
        rw [hrecord] at hok
        cases hok
        exact ⟨_, rfl, twins_remove hkeep hids id⟩

end Shelf

/-! ## Sequences of operations -/

/-- An operation on an entity, and what it takes from outside. -/
structure StoreStep where
  env : Surroundings
  entity : String
  action : StoreAction

namespace Repository

/-- What a sequence of operations answers, and what is there after each of them. -/
def trail : List StoreStep → Repository → List (Except Fault Value × Repository)
  | [], _ => []
  | s :: rest, r =>
    let outcome := r.perform s.env s.entity s.action
    outcome :: trail rest outcome.2

/-- Registers entities without records. -/
def registerAll (env : Surroundings) (entities : List String) (r : Repository) : Repository :=
  entities.foldl (fun r entity => (r.register env entity []).2) r

/-- A store in memory and a database hold the same, entity by entity. -/
structure Alike (m d : Repository) : Prop where
  twins : ∀ entity, (m.store.shelf entity).Twins (d.store.shelf entity)
  drawn : m.drawn = d.drawn

namespace Alike

variable {m d : Repository}

theorem records_eq (h : Alike m d) (entity : String) :
    m.store.records entity = d.store.records entity := by
  rw [Store.records_shelf, Store.records_shelf, (h.twins entity).records_eq]

/-- One operation that the database performs leaves both alike. -/
theorem perform {v : Value} (h : Alike m d) {s : StoreStep} (hdistinct : s.action.isDistinct = true)
    (hok : (d.perform s.env s.entity s.action).1 = .ok v) :
    (m.perform s.env s.entity s.action).1 = .ok v ∧
      Alike (m.perform s.env s.entity s.action).2 (d.perform s.env s.entity s.action).2 := by
  obtain ⟨hanswer, hshelf⟩ := perform_shelf s.env s.entity s.action d
  obtain ⟨hanswer', hshelf'⟩ := perform_shelf s.env s.entity s.action m
  have htwins := h.twins s.entity
  have hthere : (d.store.shelf s.entity).hasEntity = true := by
    by_contra habsent
    rw [hok, Shelf.perform, if_neg habsent] at hanswer
    cases hanswer
  -- The entity is there, so the operation is what it is on the shelf.
  rw [Shelf.perform, if_pos hthere] at hanswer hshelf
  rw [Shelf.perform, htwins.hasEntity, if_pos hthere, h.drawn] at hanswer' hshelf'
  have hact : ((d.store.shelf s.entity).act s.env d.drawn s.action).1 = .ok v := by
    rw [hok] at hanswer
    cases hd : ((d.store.shelf s.entity).act s.env d.drawn s.action).1 with
    | ok w =>
      rw [hd] at hanswer
      cases hanswer
      rfl
    | error defect =>
      rw [hd] at hanswer
      cases hanswer
  obtain ⟨m', hm', htwins'⟩ := htwins.act hdistinct s.env d.drawn hthere (Prod.ext hact rfl)
  rw [hm'] at hanswer' hshelf'
  refine ⟨hanswer', ?_, ?_⟩
  · intro entity
    by_cases hentity : entity = s.entity
    · rw [hentity, hshelf, hshelf']
      exact htwins'
    · rw [perform_other hentity, perform_other hentity]
      exact h.twins entity
  · have hdraws : (m.store.shelf s.entity).draws s.action =
        (d.store.shelf s.entity).draws s.action := by
      unfold Shelf.draws
      rw [htwins.hasEntity]
    rw [perform_drawn, perform_drawn, h.drawn, hdraws]

/-- A sequence of operations that the database performs. -/
theorem trail (h : Alike m d) {steps : List StoreStep}
    (hdistinct : ∀ s ∈ steps, s.action.isDistinct = true)
    (hok : ∀ outcome ∈ d.trail steps, ∃ v, outcome.1 = .ok v) :
    List.Forall₂ (fun x y => x.1 = y.1 ∧ Alike x.2 y.2) (m.trail steps) (d.trail steps) := by
  induction steps generalizing m d with
  | nil => exact .nil
  | cons s rest ih =>
    obtain ⟨⟨v, hv⟩, hrest⟩ := List.forall_mem_cons.1 hok
    obtain ⟨hs, hdistinct⟩ := List.forall_mem_cons.1 hdistinct
    obtain ⟨hanswer, halike⟩ := h.perform hs hv
    exact .cons ⟨hanswer.trans hv.symm, halike⟩ (ih halike hdistinct hrest)

end Alike

/-! ## The start -/

/-- A database has no rows yet, and its entities are those in memory, which have no records yet. -/
structure Bare (m : Memory) (d : Database) : Prop where
  rows : d.rows = []
  entities : ∀ entity, m.records? entity = if d.hasEntity entity then some [] else none

namespace Bare

variable {m : Memory} {d : Database}

theorem alike (h : Bare m d) (drawn : Nat) : Alike ⟨.memory m, drawn⟩ ⟨.database d, drawn⟩ := by
  refine ⟨fun entity => ?_, rfl⟩
  have hnone : d.entriesOf entity = [] := by rw [Database.entriesOf, h.rows, List.filter_nil,
    List.map_nil]
  have hshelf := h.entities entity
  simp only [Store.shelf, hnone]
  cases hthere : d.hasEntity entity with
  | true =>
    rw [hshelf, hthere, if_pos rfl]
    exact .present .nil .nil
  | false =>
    rw [hshelf, hthere, if_neg Bool.false_ne_true]
    exact .absent

theorem register (h : Bare m d) (entity : String) :
    Bare (m.setRecords entity []) (d.register entity) := by
  have hthere (other : String) : (d.register entity).hasEntity other =
      (d.hasEntity other || decide (other = entity)) := by
    unfold Database.register Database.hasEntity
    split
    · rename_i hentity
      by_cases hother : other = entity
      · rw [hother, hentity, decide_eq_true rfl, Bool.or_true]
      · rw [decide_eq_false hother, Bool.or_false]
    · simp
  refine ⟨?_, fun other => ?_⟩
  · unfold Database.register
    split <;> exact h.rows
  · rw [hthere, Memory.records?, Memory.setRecords]
    by_cases hother : other = entity
    · rw [hother, Entries.get?_set_self, decide_eq_true rfl, Bool.or_true, if_pos rfl]
    · rw [Entries.get?_set_of_ne hother, decide_eq_false hother, Bool.or_false]
      exact h.entities other

theorem registerAll (h : Bare m d) (env : Surroundings) (entities : List String) (drawn : Nat) :
    Alike (registerAll env entities ⟨.memory m, drawn⟩)
      (registerAll env entities ⟨.database d, drawn⟩) := by
  induction entities generalizing m d with
  | nil => exact h.alike drawn
  | cons entity rest ih => exact ih (h.register entity)

end Bare

/-- **What a database performs, a store in memory performs alike.** Both start with the same entities
and no records. If the database performs each of the operations, the store in memory gives the same
answers, and after each operation both have the same records of every entity, in the same order and
with the same fields in the same order. -/
theorem interchangeable (env : Surroundings) (entities : List String) (drawn : Nat)
    (steps : List StoreStep) (hdistinct : ∀ s ∈ steps, s.action.isDistinct = true)
    (hok : ∀ outcome ∈ (registerAll env entities ⟨.database .empty, drawn⟩).trail steps,
      ∃ v, outcome.1 = .ok v) :
    List.Forall₂
      (fun inMemory inDatabase => inMemory.1 = inDatabase.1 ∧
        ∀ entity, inMemory.2.store.records entity = inDatabase.2.store.records entity)
      ((registerAll env entities ⟨.memory .empty, drawn⟩).trail steps)
      ((registerAll env entities ⟨.database .empty, drawn⟩).trail steps) := by
  -- Registering leaves both without records; then each operation keeps them alike.
  have hbare : Bare .empty .empty := ⟨rfl, fun _ => rfl⟩
  have htrails := (hbare.registerAll env entities drawn).trail hdistinct hok
  exact htrails.imp fun _ _ h => ⟨h.1, h.2.records_eq⟩

/-- The surroundings at a moment, with ids of growing length. -/
def kennelTime (n : Int) : Surroundings :=
  ⟨⟨n, some 0⟩, fun n => String.ofList (List.replicate n 'i')⟩

/-- A cat gets another field, and a dog that brings its own id leaves and comes back. -/
def kennelSteps : List StoreStep :=
  [⟨kennelTime 0, "cats", .create [("name", .text "Tom")]⟩,
   ⟨kennelTime 1, "dogs", .create [("id", .text "rex")]⟩,
   ⟨kennelTime 2, "cats", .update "i" [("age", .int 3), ("name", .text "Tomcat")]⟩,
   ⟨kennelTime 3, "dogs", .delete "rex"⟩,
   ⟨kennelTime 4, "dogs", .create [("id", .text "rex"), ("tags", .list [.null, .bool true])]⟩,
   ⟨kennelTime 5, "cats", .filter [("age", .int 3)]⟩,
   ⟨kennelTime 6, "dogs", .list⟩]

/-- The database performs all of this. -/
theorem kennel_alike :
    (∀ s ∈ kennelSteps, s.action.isDistinct = true) ∧
    (∀ outcome ∈ (registerAll (kennelTime 0) ["cats", "dogs"] ⟨.database .empty, 0⟩).trail
      kennelSteps, ∃ v, outcome.1 = .ok v) ∧
    List.Forall₂
      (fun inMemory inDatabase => inMemory.1 = inDatabase.1 ∧
        ∀ entity, inMemory.2.store.records entity = inDatabase.2.store.records entity)
      ((registerAll (kennelTime 0) ["cats", "dogs"] ⟨.memory .empty, 0⟩).trail kennelSteps)
      ((registerAll (kennelTime 0) ["cats", "dogs"] ⟨.database .empty, 0⟩).trail kennelSteps) := by
  have hdistinct : ∀ s ∈ kennelSteps, s.action.isDistinct = true := by decide +kernel
  have hperformed : ((registerAll (kennelTime 0) ["cats", "dogs"] ⟨.database .empty, 0⟩).trail
      kennelSteps).all (fun outcome => outcome.1.isOk) = true := by decide +kernel
  have hok : ∀ outcome ∈ (registerAll (kennelTime 0) ["cats", "dogs"] ⟨.database .empty, 0⟩).trail
      kennelSteps, ∃ v, outcome.1 = .ok v := by
    intro outcome hmem
    have hisOk := List.all_eq_true.1 hperformed outcome hmem
    cases hanswer : outcome.1 with
    | ok v => exact ⟨v, rfl⟩
    | error f =>
      rw [hanswer] at hisOk
      cases hisOk
  exact ⟨hdistinct, hok, interchangeable _ _ 0 kennelSteps hdistinct hok⟩

end Repository

end Workgraph
