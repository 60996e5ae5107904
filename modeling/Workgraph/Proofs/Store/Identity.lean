import Workgraph.Proofs.Store.Interchange
/-!
# Records by their ids

A database keeps the ids of an entity apart, whatever is asked of it. A store in memory appends each new
record, so it keeps them apart just as long as it is given no id that is taken
(`Repository.ids_distinct_iff`). While they are apart, an id means one record: deleting it leaves none
with that id, and an update changes that record and no other. Nothing stops a store in memory from
taking in an id twice (`Repository.dogsWithOneId_not_distinct`).
-/

namespace Workgraph

/-! ## Lists of records -/

/-- Records with texts as ids, each with its own. -/
structure IdsDistinct (rs : List Record) : Prop where
  texts : ∀ r ∈ rs, ∃ s, Record.id r = .text s
  nodup : (rs.map Record.id).Nodup

/-- Between the records in front of it and behind it, a record is the only one with an id. -/
structure OnlyWith (id : String) (r : Record) (front back : List Record) : Prop where
  has : r.hasId id = true
  others : ∀ other ∈ front ++ back, other.hasId id = false

namespace IdsDistinct

variable {rs front back : List Record} {r old new : Record} {id : String}

theorem nil : IdsDistinct [] := ⟨fun _ h => absurd h List.not_mem_nil, List.nodup_nil⟩

theorem hasId_iff (h : IdsDistinct rs) (hr : r ∈ rs) : r.hasId id = true ↔ Record.id r = .text id := by
  obtain ⟨s, hs⟩ := h.texts r hr
  rw [Record.hasId_of_id hs, hs, decide_eq_true_iff, Value.text.injEq]

/-- A new record at the end. -/
theorem insert (h : IdsDistinct rs) {s : String} (hs : Record.id new = .text s)
    (hfresh : ∀ r ∈ rs, Record.id r ≠ Record.id new) : IdsDistinct (Memory.insert rs new) := by
  constructor
  · intro r hr
    rcases List.mem_append.1 hr with hr | hr
    · exact h.texts r hr
    · exact ⟨s, List.mem_singleton.1 hr ▸ hs⟩
  · rw [Memory.insert, List.map_append, List.nodup_append]
    refine ⟨h.nodup, List.pairwise_singleton _ _, ?_⟩
    intro v hv w hw
    obtain ⟨r, hr, rfl⟩ := List.mem_map.1 hv
    rw [List.map_singleton, List.mem_singleton] at hw
    rw [hw]
    exact hfresh r hr

/-- The record that is found is the only one with its id. -/
theorem exists_onlyWith (h : IdsDistinct rs) (hfind : Memory.find? rs id = some old) :
    ∃ front back, rs = front ++ old :: back ∧ OnlyWith id old front back := by
  obtain ⟨hold, front, back, rfl, hfront⟩ := List.find?_eq_some_iff_append.1 hfind
  refine ⟨front, back, rfl, hold, fun other hother => ?_⟩
  rcases List.mem_append.1 hother with hother | hother
  · simpa using hfront other hother
  -- Behind the record its id does not stand again.
  · have hnodup := h.nodup
    rw [List.map_append, List.map_cons, List.nodup_append] at hnodup
    have hne : Record.id old ∉ back.map Record.id := (List.nodup_cons.1 hnodup.2.1).1
    rw [Bool.eq_false_iff]
    intro hhas
    have hother' : other ∈ front ++ old :: back :=
      List.mem_append_right front (List.mem_cons_of_mem old hother)
    have hmem : old ∈ front ++ old :: back := List.mem_append_right front List.mem_cons_self
    rw [h.hasId_iff hmem] at hold
    rw [h.hasId_iff hother'] at hhas
    exact hne (hold ▸ hhas ▸ List.mem_map_of_mem hother)

/-- Another record with the same id in the place of one. -/
theorem replace (h : IdsDistinct (front ++ old :: back)) (hid : Record.id new = Record.id old) :
    IdsDistinct (front ++ new :: back) := by
  have hsame : (front ++ new :: back).map Record.id = (front ++ old :: back).map Record.id := by
    rw [List.map_append, List.map_append, List.map_cons, List.map_cons, hid]
  constructor
  · intro r hr
    have hmem : Record.id r ∈ (front ++ old :: back).map Record.id := hsame ▸ List.mem_map_of_mem hr
    obtain ⟨other, hother, heq⟩ := List.mem_map.1 hmem
    exact heq ▸ h.texts other hother
  · rw [hsame]
    exact h.nodup

/-- One record less. -/
theorem remove (h : IdsDistinct (front ++ old :: back)) : IdsDistinct (front ++ back) := by
  have hsublist : (front ++ back).Sublist (front ++ old :: back) :=
    (List.sublist_cons_self old back).append_left front
  exact ⟨fun r hr => h.texts r (hsublist.subset hr), h.nodup.sublist (hsublist.map Record.id)⟩

end IdsDistinct

namespace OnlyWith

variable {id : String} {old : Record} {front back : List Record}

theorem front_eq_false (h : OnlyWith id old front back) : ∀ r ∈ front, r.hasId id = false :=
  fun r hr => h.others r (List.mem_append_left back hr)

/-- It is the record that is replaced. -/
theorem replaceFirst (h : OnlyWith id old front back) (new : Record) :
    Memory.replaceFirst id new (front ++ old :: back) = front ++ new :: back := by
  have hfront := h.front_eq_false
  generalize front = rs at hfront
  induction rs with
  | nil => rw [List.nil_append, Memory.replaceFirst, if_pos h.has, List.nil_append]
  | cons r rs ih =>
    have hr : ¬ r.hasId id = true := Bool.eq_false_iff.1 (hfront r List.mem_cons_self)
    rw [List.cons_append, Memory.replaceFirst, if_neg hr,
      ih fun other hother => hfront other (List.mem_cons_of_mem r hother), List.cons_append]

/-- It is the record that is removed. -/
theorem removeFirst (h : OnlyWith id old front back) :
    Memory.removeFirst id (front ++ old :: back) = front ++ back := by
  have hfront := h.front_eq_false
  generalize front = rs at hfront
  induction rs with
  | nil => rw [List.nil_append, Memory.removeFirst, if_pos h.has, List.nil_append]
  | cons r rs ih =>
    have hr : ¬ r.hasId id = true := Bool.eq_false_iff.1 (hfront r List.mem_cons_self)
    rw [List.cons_append, Memory.removeFirst, if_neg hr,
      ih fun other hother => hfront other (List.mem_cons_of_mem r hother), List.cons_append]

end OnlyWith

namespace Shelf

/-! ## Shelves -/

/-- A shelf on which no two records have the same id. In a database each row spells its record. -/
inductive Tidy : Shelf → Prop
  | memory {records : Option (List Record)} (ids : IdsDistinct (records.getD [])) :
      Tidy (.memory records)
  | database (registered : Bool) {rows : List (String × String)} {rs : List Record}
      (rows_keep : List.Forall₂ Keeps rows rs) (distinct_ids : (rows.map Prod.fst).Nodup) :
      Tidy (.database registered rows)

/-- The ids of records are those of the rows that spell them. -/
theorem idsDistinct_of_keeps {rows : List (String × String)} {rs : List Record}
    (hkeep : List.Forall₂ Keeps rows rs) (hids : (rows.map Prod.fst).Nodup) : IdsDistinct rs := by
  have heq : rs.map Record.id = (rows.map Prod.fst).map Value.text := by
    rw [List.map_map]
    induction hkeep with
    | nil => rfl
    | cons hrow _ ih =>
      rw [List.map_cons, List.map_cons, hrow.id, ih (List.nodup_cons.1 hids).2]
      rfl
  constructor
  · intro r hr
    have hmem : Record.id r ∈ (rows.map Prod.fst).map Value.text := heq ▸ List.mem_map_of_mem hr
    obtain ⟨s, -, hs⟩ := List.mem_map.1 hmem
    exact ⟨s, hs.symm⟩
  · rw [heq]
    exact hids.map fun _ _ h => Value.text.inj h

/-- What is like records in memory is tidy. -/
theorem Twins.tidy {rs : List Record} {d : Shelf} (h : Twins (.memory (some rs)) d) : d.Tidy := by
  cases h with
  | present hkeep hids => exact .database true hkeep hids

/-- Whether an operation takes in no id that a record in memory has. -/
def TakesFresh (env : Surroundings) (drawn : Nat) : Shelf → StoreAction → Prop
  | .memory records, .create data => ∀ new,
      Record.ofData (env.freshId (drawn + 1)) env.stamp data = .ok new →
      ∀ r ∈ records.getD [], Record.id r ≠ Record.id new
  | _, _ => True

namespace Tidy

variable {sh sh' : Shelf} {id : String} {old : Record} {data : Entries Value}

theorem idsDistinct (h : Tidy sh) : IdsDistinct sh.records := by
  cases h with
  | memory ids => exact ids
  | database registered hkeep hids =>
    rw [records, map_data hkeep]
    exact idsDistinct_of_keeps hkeep hids

/-- The record that a deletion finds is the only one with the id, and it is gone afterwards. -/
theorem delete (h : Tidy sh) (hthere : sh.hasEntity = true) (hold : sh.record? id = some old) :
    (sh.remove id).Tidy ∧ ∃ front back, sh.records = front ++ old :: back ∧
      OnlyWith id old front back ∧ (sh.remove id).records = front ++ back := by
  cases h with
  | memory ids =>
    obtain ⟨front, back, heq, honly⟩ := ids.exists_onlyWith hold
    rw [heq] at ids
    have hremove := honly.removeFirst
    rw [← heq] at hremove
    refine ⟨.memory ?_, front, back, heq, honly, hremove⟩
    rw [Option.getD_some, hremove]
    exact ids.remove
  | @database registered rows rs hkeep hids =>
    cases hthere
    rw [← record?_eq hkeep] at hold
    obtain ⟨front, back, rfl, honly⟩ := (idsDistinct_of_keeps hkeep hids).exists_onlyWith hold
    -- The rows go in step with records in memory, on which the removal is known.
    have htwins := twins_remove hkeep hids id
    rw [honly.removeFirst] at htwins
    exact ⟨htwins.tidy, front, back, map_data hkeep, honly, htwins.records_eq.symm⟩

/-- The record that an update finds is the only one with the id, and the only one that changes. -/
theorem update (h : Tidy sh) (hthere : sh.hasEntity = true) (hold : sh.record? id = some old)
    (hdata : (Value.object data).isDistinct = true) (stamp : String)
    (hok : sh.replace id (old.change stamp data) = .ok sh') :
    sh'.Tidy ∧ ∃ front back, sh.records = front ++ old :: back ∧
      OnlyWith id old front back ∧ sh'.records = front ++ old.change stamp data :: back := by
  cases h with
  | memory ids =>
    cases hok
    obtain ⟨front, back, heq, honly⟩ := ids.exists_onlyWith hold
    rw [heq] at ids
    have hreplace := honly.replaceFirst (old.change stamp data)
    rw [← heq] at hreplace
    refine ⟨.memory ?_, front, back, heq, honly, hreplace⟩
    rw [Option.getD_some, hreplace]
    exact ids.replace (Record.id_change old stamp data)
  | @database registered rows rs hkeep hids =>
    cases hthere
    obtain ⟨hid, hdistinct⟩ := keeps_of_record? hkeep hold
    rw [← record?_eq hkeep] at hold
    obtain ⟨front, back, rfl, honly⟩ := (idsDistinct_of_keeps hkeep hids).exists_onlyWith hold
    -- As with a removal, the rows go in step with records in memory.
    have htwins := twins_replace hkeep hids ((Record.id_change old stamp data).trans hid)
      (Record.isDistinct_change hdistinct hdata stamp) hok
    rw [honly.replaceFirst] at htwins
    exact ⟨htwins.tidy, front, back, map_data hkeep, honly, htwins.records_eq.symm⟩

/-- A database takes in no id that is taken, and to a store in memory none is brought. -/
theorem create (h : Tidy sh) (hthere : sh.hasEntity = true)
    (hdata : (Value.object data).isDistinct = true) (env : Surroundings) (drawn : Nat)
    (hfresh : sh.TakesFresh env drawn (.create data)) {new : Record}
    (hmade : Record.ofData (env.freshId (drawn + 1)) env.stamp data = .ok new)
    (hok : sh.insert new = .ok sh') : sh'.Tidy := by
  obtain ⟨s, hid⟩ := Record.id_create (env.freshId (drawn + 1)) env.stamp data
  rw [← Record.eq_create_of_ofData hmade] at hid
  cases h with
  | memory ids =>
    cases hok
    exact .memory (ids.insert hid (hfresh new hmade))
  -- The insertion has succeeded, so that the id was not among those of the rows.
  | database registered hkeep hids =>
    cases hthere
    have hdistinct := Record.isDistinct_create hdata (env.freshId (drawn + 1)) env.stamp
    rw [← Record.eq_create_of_ofData hmade] at hdistinct
    exact (twins_insert hkeep hids hid hdistinct hok).tidy

/-- **One operation leaves a shelf tidy.** -/
theorem act (h : Tidy sh) (hthere : sh.hasEntity = true) {action : StoreAction}
    (hdistinct : action.isDistinct = true) (env : Surroundings) (drawn : Nat)
    (hfresh : sh.TakesFresh env drawn action) : (sh.act env drawn action).2.Tidy := by
  cases action with
  | create data =>
    rw [Shelf.act]
    split
    · exact h
    · rename_i new hmade
      split
      · rename_i sh' hok
        exact h.create hthere hdistinct env drawn hfresh hmade hok
      · exact h
  | update id data =>
    rw [Shelf.act]
    split
    · rename_i old hold
      dsimp only
      split
      · rename_i sh' hok
        exact (h.update hthere hold hdistinct env.stamp hok).1
      · exact h
    · exact h
  | delete id =>
    rw [Shelf.act]
    split
    · rename_i old hold
      exact (h.delete hthere hold).1
    · exact h
  | _ => exact h

end Tidy

end Shelf

/-! ## Stores -/

/-- What happens to a store: an entity is registered, or an operation is asked for. -/
inductive StoreChange where
  | register (env : Surroundings) (entity : String) (records : List (Entries Value))
  | perform (s : StoreStep)

/-- Whether the data that a change brings has no name twice in any object. -/
def StoreChange.isDistinct : StoreChange → Bool
  | .register .. => true
  | .perform s => s.action.isDistinct

namespace Repository

/-- The store after a change, whether it succeeds or not. -/
def after (r : Repository) : StoreChange → Repository
  | .register env entity records => (r.register env entity records).2
  | .perform s => (r.perform s.env s.entity s.action).2

/-- A store before, between and after some changes. -/
def states : List StoreChange → Repository → List Repository
  | [], r => [r]
  | c :: rest, r => r :: states rest (r.after c)

/-- Whether no two records of an entity have the same id. -/
def DistinctIds (r : Repository) : Prop :=
  ∀ entity, ((r.store.records entity).map Record.id).Nodup

/-- Whether a change brings no taken id to a store in memory: neither to the records that an entity
already has, nor twice among those with which it is registered. -/
def TakesFresh (r : Repository) : StoreChange → Prop
  | .register env entity records => ∀ m, r.store = .memory m →
      (((r.register env entity records).2.store.records entity).map Record.id).Nodup
  | .perform s => (r.store.shelf s.entity).TakesFresh s.env r.drawn s.action

/-- Whether no change of a sequence brings a taken id to a store in memory. -/
def AllFresh : List StoreChange → Repository → Prop
  | [], _ => True
  | c :: rest, r => r.TakesFresh c ∧ AllFresh rest (r.after c)

/-- Whether the shelf of each entity is tidy. -/
def Tidy (r : Repository) : Prop := ∀ entity, (r.store.shelf entity).Tidy

theorem Tidy.distinctIds {r : Repository} (h : r.Tidy) : r.DistinctIds := by
  intro entity
  rw [Store.records_shelf]
  exact (h entity).idsDistinct.nodup

/-- Nothing is on the shelves of an empty store. -/
theorem tidy_of_empty {r : Repository} (h : r.store = .memory .empty ∨ r.store = .database .empty) :
    r.Tidy := by
  intro entity
  rcases h with h | h
  · rw [h]
    exact .memory .nil
  · rw [h]
    exact .database false .nil List.nodup_nil

/-! ### Registering -/

/-- Records that are made one after another have texts as ids, behind those that have been made. -/
theorem texts_of_fill (env : Surroundings) {records : List (Entries Value)} {all : List Record}
    {drawn' : Nat} : ∀ {made : List Record} {drawn : Nat},
    (∀ r ∈ made, ∃ s, Record.id r = .text s) → fill env records made drawn = (.ok all, drawn') →
    ∀ r ∈ all, ∃ s, Record.id r = .text s := by
  induction records with
  | nil =>
    intro made drawn hmade h
    cases h
    exact hmade
  | cons data records ih =>
    intro made drawn hmade h
    rw [fill] at h
    split at h
    · rename_i new hnew
      refine ih (fun r hr => ?_) h
      rcases List.mem_append.1 hr with hr | hr
      · exact hmade r hr
      · rw [List.mem_singleton.1 hr, Record.eq_create_of_ofData hnew]
        exact Record.id_create _ env.stamp data
    · cases h

/-- In memory an entity starts with new records, or it is left as it was since one of them cannot be
made. -/
theorem register_memory (env : Surroundings) (entity : String) (records : List (Entries Value))
    (m : Memory) (drawn : Nat) :
    (∃ made drawn', (register env entity records ⟨.memory m, drawn⟩).2 =
        ⟨.memory (m.setRecords entity made), drawn'⟩ ∧ ∀ r ∈ made, ∃ s, Record.id r = .text s) ∨
      ∃ drawn', (register env entity records ⟨.memory m, drawn⟩).2 = ⟨.memory m, drawn'⟩ := by
  rw [register]
  rcases hfill : fill env records [] drawn with ⟨d | made, drawn'⟩
  · exact .inr ⟨drawn', rfl⟩
  · exact .inl ⟨made, drawn', rfl, texts_of_fill env (fun _ hr => absurd hr List.not_mem_nil) hfill⟩

theorem Tidy.register {r : Repository} (h : r.Tidy) {env : Surroundings} {entity : String}
    {records : List (Entries Value)} (hfresh : r.TakesFresh (.register env entity records)) :
    (r.register env entity records).2.Tidy := by
  obtain ⟨store, drawn⟩ := r
  intro other
  cases store with
  | memory m =>
    have hother := h other
    rcases register_memory env entity records m drawn with
      ⟨made, drawn', hmade, htexts⟩ | ⟨drawn', hkept⟩
    · have hids := hfresh m rfl
      rw [hmade] at hids ⊢
      simp only [Store.shelf, Memory.records?, Memory.setRecords, Store.records] at hids hother ⊢
      -- Only the shelf of the entity is filled anew.
      by_cases heq : other = entity
      · rw [Entries.get?_set_self, Option.getD_some] at hids
        rw [heq, Entries.get?_set_self]
        exact .memory ⟨htexts, hids⟩
      · rw [Entries.get?_set_of_ne heq]
        exact hother
    · rw [hkept]
      exact hother
  | database d =>
    -- In a database registering brings no records.
    have hrows : (d.register entity).entriesOf other = d.entriesOf other := by
      unfold Database.register
      split <;> rfl
    have hother := h other
    simp only [Repository.register, Store.shelf, hrows] at hother ⊢
    cases hother with
    | database registered hkeep hids => exact .database _ hkeep hids

/-! ### Operations -/

theorem Tidy.perform {r : Repository} (h : r.Tidy) {s : StoreStep}
    (hdistinct : s.action.isDistinct = true) (hfresh : r.TakesFresh (.perform s)) :
    (r.perform s.env s.entity s.action).2.Tidy := by
  intro entity
  by_cases hentity : entity = s.entity
  · rw [hentity, (perform_shelf s.env s.entity s.action r).2, Shelf.perform]
    split
    · rename_i hthere
      exact (h s.entity).act hthere hdistinct s.env r.drawn hfresh
    · exact h s.entity
  · rw [perform_other hentity]
    exact h entity

/-- **One change leaves a store tidy**, if it brings no taken id to a store in memory. -/
theorem Tidy.after {r : Repository} (h : r.Tidy) {c : StoreChange} (hdistinct : c.isDistinct = true)
    (hfresh : r.TakesFresh c) : (r.after c).Tidy := by
  cases c with
  | register env entity records => exact h.register hfresh
  | perform s => exact h.perform hdistinct hfresh

/-- If ids are distinct after a change, it has brought no taken one. -/
theorem takesFresh_of_distinctIds {r : Repository} {c : StoreChange}
    (h : (r.after c).DistinctIds) : r.TakesFresh c := by
  cases c with
  | register env entity records => exact fun m _ => h entity
  | perform s =>
    have hids := h s.entity
    rw [Store.records_shelf, Repository.after, (perform_shelf s.env s.entity s.action r).2,
      Shelf.perform] at hids
    rw [TakesFresh]
    generalize r.store.shelf s.entity = sh at hids ⊢
    cases hsh : sh with
    | database registered rows => exact True.intro
    | memory records =>
      cases haction : s.action with
      | create data =>
        rw [hsh, haction] at hids
        cases records with
        | none => exact fun _ _ old hold => absurd hold List.not_mem_nil
        | some rs =>
          intro new hmade old hold
          -- The record stands behind those that were there.
          have hnodup : ((rs ++ [new]).map Record.id).Nodup := by
            simpa [Shelf.hasEntity, Shelf.act, hmade, Shelf.insert, Memory.insert, Shelf.records]
              using hids
          rw [List.map_append, List.nodup_append] at hnodup
          exact hnodup.2.2 _ (List.mem_map_of_mem hold) _ (List.mem_singleton_self _)
      | _ => exact True.intro

/-- **A whole run**: ids stay distinct as long as no taken one is brought to a store in memory. -/
theorem Tidy.states_iff {changes : List StoreChange}
    (hdistinct : ∀ c ∈ changes, c.isDistinct = true) {r : Repository} (h : r.Tidy) :
    ((∀ s ∈ r.states changes, s.DistinctIds) ↔ r.AllFresh changes) ∧
      (r.AllFresh changes → ∀ s ∈ r.states changes, s.Tidy) := by
  induction changes generalizing r with
  | nil =>
    refine ⟨⟨fun _ => True.intro, fun _ s hs => ?_⟩, fun _ s hs => ?_⟩
    · exact List.mem_singleton.1 hs ▸ h.distinctIds
    · exact List.mem_singleton.1 hs ▸ h
  | cons c rest ih =>
    obtain ⟨hc, hrest⟩ := List.forall_mem_cons.1 hdistinct
    have htidy : r.AllFresh (c :: rest) → ∀ s ∈ r.states (c :: rest), s.Tidy := by
      rintro ⟨hfresh, hmore⟩ s hs
      rcases List.mem_cons.1 hs with rfl | hs
      · exact h
      · exact (ih hrest (h.after hc hfresh)).2 hmore s hs
    refine ⟨⟨fun hids => ?_, fun hfresh s hs => (htidy hfresh s hs).distinctIds⟩, htidy⟩
    have hmore : ∀ s ∈ (r.after c).states rest, s.DistinctIds :=
      fun s hs => hids s (List.mem_cons_of_mem r hs)
    -- The converse needs the next state only: the change has brought no taken id to it.
    have hnext : (r.after c).DistinctIds := by
      apply hmore
      cases rest <;> exact List.mem_cons_self
    have hfresh := takesFresh_of_distinctIds hnext
    exact ⟨hfresh, (ih hrest (h.after hc hfresh)).1.1 hmore⟩

/-! ### What an id means -/

section
variable {r : Repository} {env : Surroundings} {entity id : String}

/-- An operation that answers with a record is carried out on the shelf of an entity that is there. -/
theorem perform_ok {action : StoreAction} {v : Value} (hok : (r.perform env entity action).1 = .ok v) :
    (r.store.shelf entity).hasEntity = true ∧
      ((r.store.shelf entity).act env r.drawn action).1 = .ok v ∧
      (r.perform env entity action).2.store.records entity =
        ((r.store.shelf entity).act env r.drawn action).2.records := by
  obtain ⟨hanswer, hshelf⟩ := perform_shelf env entity action r
  have hthere : (r.store.shelf entity).hasEntity = true := by
    by_contra habsent
    rw [hok, Shelf.perform, if_neg habsent] at hanswer
    cases hanswer
  rw [Shelf.perform, if_pos hthere] at hanswer hshelf
  refine ⟨hthere, ?_, by rw [Store.records_shelf, hshelf]⟩
  rw [hok] at hanswer
  cases hact : ((r.store.shelf entity).act env r.drawn action).1 with
  | ok w =>
    rw [hact] at hanswer
    cases hanswer
    rfl
  | error defect =>
    rw [hact] at hanswer
    cases hanswer

/-- A deletion takes the only record with an id away. -/
theorem Tidy.delete (h : r.Tidy) {old : Record}
    (hok : (r.perform env entity (.delete id)).1 = .ok (.object old)) :
    ∃ front back, r.store.records entity = front ++ old :: back ∧ OnlyWith id old front back ∧
      (r.perform env entity (.delete id)).2.store.records entity = front ++ back := by
  obtain ⟨hthere, hact, hafter⟩ := perform_ok hok
  rw [hafter, Store.records_shelf]
  -- A deletion without a record answers null, and this one has answered with a record.
  cases hold : (r.store.shelf entity).record? id with
  | none =>
    rw [Shelf.act, hold] at hact
    cases hact
  | some found =>
    rw [Shelf.act, hold] at hact
    cases hact
    obtain ⟨front, back, hrecords, honly, hremove⟩ := ((h entity).delete hthere hold).2
    refine ⟨front, back, hrecords, honly, ?_⟩
    rw [Shelf.act, hold]
    exact hremove

/-- An update changes the only record with an id. -/
theorem Tidy.update (h : r.Tidy) {data : Entries Value} {new : Record}
    (hdata : (Value.object data).isDistinct = true)
    (hok : (r.perform env entity (.update id data)).1 = .ok (.object new)) :
    ∃ old front back, r.store.records entity = front ++ old :: back ∧ OnlyWith id old front back ∧
      new = old.change env.stamp data ∧
      (r.perform env entity (.update id data)).2.store.records entity = front ++ new :: back := by
  obtain ⟨hthere, hact, hafter⟩ := perform_ok hok
  rw [hafter, Store.records_shelf]
  cases hold : (r.store.shelf entity).record? id with
  | none =>
    rw [Shelf.act, hold] at hact
    cases hact
  | some old =>
    rw [Shelf.act, hold] at hact ⊢
    cases hreplace : (r.store.shelf entity).replace id (old.change env.stamp data) with
    | error defect =>
      simp only [hreplace] at hact
      cases hact
    | ok sh =>
      simp only [hreplace] at hact ⊢
      cases hact
      obtain ⟨front, back, hrecords, honly, hupdate⟩ :=
        ((h entity).update hthere hold hdata env.stamp hreplace).2
      exact ⟨old, front, back, hrecords, honly, rfl, hupdate⟩

/-- A database stays one. -/
theorem perform_database (env : Surroundings) (entity : String) (d : Database) (drawn : Nat)
    (action : StoreAction) :
    ∃ d' drawn', (perform env entity action ⟨.database d, drawn⟩).2 = ⟨.database d', drawn'⟩ := by
  unfold perform
  split
  · cases action with
    | create data =>
      simp only [act, create, Store.insert]
      cases Record.ofData (env.freshId (drawn + 1)) env.stamp data with
      | error defect => exact ⟨_, _, rfl⟩
      | ok new => cases hinsert : d.insert entity (Record.id new).shown new <;>
          simp only [Except.map, hinsert] <;> exact ⟨_, _, rfl⟩
    | update id data =>
      simp only [act, update, Store.replace]
      cases Store.record? entity id (.database d) with
      | none => exact ⟨_, _, rfl⟩
      | some old => cases hreplace : d.replace entity id (old.change env.stamp data) <;>
          simp only [Except.map, hreplace] <;> exact ⟨_, _, rfl⟩
    | delete id =>
      simp only [act, delete]
      cases Store.record? entity id (.database d) <;> exact ⟨_, _, rfl⟩
    | _ => exact ⟨_, _, rfl⟩
  · exact ⟨_, _, rfl⟩

end

/-- Nothing is asked of the changes of a database. -/
theorem allFresh_database (changes : List StoreChange) (d : Database) (drawn : Nat) :
    AllFresh changes ⟨.database d, drawn⟩ := by
  induction changes generalizing d drawn with
  | nil => exact True.intro
  | cons c rest ih =>
    cases c with
    | register env entity records => exact ⟨fun _ hm => (nomatch hm), ih _ drawn⟩
    | perform s =>
      refine ⟨True.intro, ?_⟩
      obtain ⟨d', drawn', hafter⟩ := perform_database s.env s.entity d drawn s.action
      rw [after, hafter]
      exact ih d' drawn'

/-- **Ids are distinct exactly as long as no taken one is brought to a store in memory.** A store that
starts empty goes through any changes. A database takes in no taken id; in memory, the ids of an entity
are distinct in all states just when each record came with an id that no record of the entity had. While
they are, a deletion that answers with a record leaves no other with its id, and an update changes the
only record with the id. -/
theorem ids_distinct_iff {r : Repository}
    (hempty : r.store = .memory .empty ∨ r.store = .database .empty) {changes : List StoreChange}
    (hdistinct : ∀ c ∈ changes, c.isDistinct = true) :
    ((∀ s ∈ r.states changes, s.DistinctIds) ↔ r.AllFresh changes) ∧
    (r.store = .database .empty → r.AllFresh changes) ∧
    (r.AllFresh changes → ∀ s ∈ r.states changes, ∀ env entity id,
      (∀ old, (s.perform env entity (.delete id)).1 = .ok (.object old) →
        ∃ front back, s.store.records entity = front ++ old :: back ∧ OnlyWith id old front back ∧
          (s.perform env entity (.delete id)).2.store.records entity = front ++ back) ∧
      ∀ data new, (Value.object data).isDistinct = true →
        (s.perform env entity (.update id data)).1 = .ok (.object new) →
        ∃ old front back, s.store.records entity = front ++ old :: back ∧
          OnlyWith id old front back ∧ new = old.change env.stamp data ∧
          (s.perform env entity (.update id data)).2.store.records entity =
            front ++ new :: back) := by
  obtain ⟨hiff, htidy⟩ := (tidy_of_empty hempty).states_iff hdistinct
  refine ⟨hiff, fun hdatabase => ?_, fun hfresh s hs env entity id => ⟨fun old hok => ?_, ?_⟩⟩
  · obtain ⟨store, drawn⟩ := r
    subst hdatabase
    exact allFresh_database changes .empty drawn
  · exact (htidy hfresh s hs).delete hok
  · exact fun data new hdata hok => (htidy hfresh s hs).update hdata hok

/-- A dog is there from the start, another one comes, and the first leaves and comes back. -/
def returningDogs : List StoreChange :=
  [.register (kennelTime 0) "dogs" [[("id", .text "rex")]],
   .perform ⟨kennelTime 1, "dogs", .create [("name", .text "Bello")]⟩,
   .perform ⟨kennelTime 2, "dogs", .delete "rex"⟩,
   .perform ⟨kennelTime 3, "dogs", .create [("id", .text "rex")]⟩]

/-- An id that is not among those of some records. -/
theorem ne_of_ids (ids : List String) (id : String) {rs : List Record} {new : Record}
    (hids : rs.map Record.id = ids.map Value.text) (hnew : Record.id new = .text id)
    (hfresh : id ∉ ids) : ∀ r ∈ rs, Record.id r ≠ Record.id new := by
  intro r hr heq
  have hmem : Record.id r ∈ ids.map Value.text := hids ▸ List.mem_map_of_mem hr
  obtain ⟨other, hother, hsame⟩ := List.mem_map.1 hmem
  rw [heq, hnew, Value.text.injEq] at hsame
  exact hfresh (hsame ▸ hother)

/-- The dog that comes back brings an id that is no longer taken. -/
theorem returningDogs_distinct :
    AllFresh returningDogs ⟨.memory .empty, 0⟩ ∧
      ∀ s ∈ states returningDogs ⟨.memory .empty, 0⟩, s.DistinctIds := by
  have hfresh : AllFresh returningDogs ⟨.memory .empty, 0⟩ := by
    refine ⟨fun _ _ => ?_, ?_, True.intro, ?_, True.intro⟩
    · exact List.nodup_singleton (Value.text "rex")
    · rintro new hmade
      cases hmade
      exact ne_of_ids ["rex"] "ii" rfl rfl (by decide)
    · rintro new hmade
      cases hmade
      exact ne_of_ids ["ii"] "rex" rfl rfl (by decide)
  have hdistinct : ∀ c ∈ returningDogs, c.isDistinct = true := by decide
  exact ⟨hfresh, (ids_distinct_iff (.inl rfl) hdistinct).1.2 hfresh⟩

/-- Two dogs come with the same id. -/
def dogsWithOneId : List StoreChange :=
  [.register (kennelTime 0) "dogs" [],
   .perform ⟨kennelTime 1, "dogs", .create [("id", .text "rex")]⟩,
   .perform ⟨kennelTime 2, "dogs", .create [("id", .text "rex")]⟩]

theorem dogsWithOneId_not_distinct :
    ¬ ∀ s ∈ states dogsWithOneId ⟨.memory .empty, 0⟩, s.DistinctIds := by
  intro h
  -- In the last state both dogs are there.
  have hlast := h _ (List.mem_of_getLast? (a := dogsWithOneId.foldl after ⟨.memory .empty, 0⟩) rfl)
  have hids : [Value.text "rex", .text "rex"].Nodup := hlast "dogs"
  exact (List.nodup_cons.1 hids).1 List.mem_cons_self

end Repository

end Workgraph
