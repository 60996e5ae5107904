import Workgraph.Proofs.Graph.Loading
import Workgraph.Proofs.Schema.Fitting
/-!
# Ids that cannot be written

A line about a misfit names the node by the id that is given to it, and an id that holds an integer
with more digits than are converted cannot be written. Such an id is no text, so that its node never
fits: if nodes do not fit, lines are written about them exactly if no node has such an id
(`nodeLines_of_misfits`).
-/

namespace Workgraph

open Schema

namespace Schema.Fit

variable {α β : Type} {m : Misfit}

/-- A misfit is found. -/
def Finds (fit : Fit α) (m : Misfit) : Prop := ∃ found, fit = .misfits found ∧ m ∈ found

theorem Finds.map {a : Fit α} (h : a.Finds m) (f : α → β) : (f <$> a).Finds m := by
  obtain ⟨found, rfl, hm⟩ := h
  exact ⟨found, rfl, hm⟩

theorem Finds.within {a : Fit α} (h : a.Finds m) (step : Step) :
    (a.within step).Finds ⟨step :: m.path, m.reason⟩ := by
  obtain ⟨found, rfl, hm⟩ := h
  exact ⟨_, rfl, List.mem_map.2 ⟨m, hm, rfl⟩⟩

theorem Finds.left {f : Fit (α → β)} (h : f.Finds m) (a : Fit α) : (f <*> a).Finds m := by
  obtain ⟨found, rfl, hm⟩ := h
  cases a with
  | fits x => exact ⟨found, rfl, hm⟩
  | misfits more => exact ⟨found ++ more, rfl, List.mem_append_left more hm⟩

theorem Finds.right {a : Fit α} (f : Fit (α → β)) (h : a.Finds m) : (f <*> a).Finds m := by
  obtain ⟨found, rfl, hm⟩ := h
  cases f with
  | fits g => exact ⟨found, rfl, hm⟩
  | misfits before => exact ⟨before ++ found, rfl, List.mem_append_right before hm⟩

end Schema.Fit

/-- The id that is given to a value cannot be written. -/
def HasLongId (v : Value) : Prop := v.givenId.hasLongInteger = true

instance : DecidablePred HasLongId := fun v =>
  inferInstanceAs (Decidable (v.givenId.hasLongInteger = true))

/-- A value is a list, and the id that is given to one of its items cannot be written. -/
def ListsLongId (v : Value) : Prop := ∃ items, v = .list items ∧ ∃ item ∈ items, HasLongId item

namespace Node

/-- The id that is given to a value that fits is the id of the node. -/
theorem givenId_of_fits {v : Value} {n : Node} (h : ofValue v = .ok (.fits n)) :
    v.givenId = .text n.id := by
  unfold ofValue at h
  cases hknown : knownType v with
  | error d =>
    rw [hknown] at h
    cases h
  | ok known =>
    rw [hknown] at h
    have hrecord := Fit.within_eq_fits_iff.1 (Except.ok.inj h)
    cases v with
    | object fields =>
      simp only [record, ofFields, Fit.seq_eq_fits_iff, Fit.map_eq_fits_iff] at hrecord
      obtain ⟨_, ⟨_, ⟨id, hid, rfl⟩, name, -, rfl⟩, behaviour, -, rfl⟩ := hrecord
      cases hgiven : Entries.get? fields "id" with
      | none => simp [requiredField, fieldOr, hgiven, Fit.refuse, Fit.within] at hid
      | some given =>
        rw [requiredField_eq_fits_iff hgiven] at hid
        have hfield : (Value.object fields).givenId = given := by
          simp [Value.givenId, Value.field?, hgiven]
        rw [hfield]
        -- Of the values only a text fits, and as itself.
        cases given with
        | text s =>
          by_cases hs : s = ""
          · simp [someText, text, Fit.check, hs, Fit.refuse] at hid
          · simp only [someText, text, Fit.check, if_neg hs, Fit.fits.injEq] at hid
            rw [hid]
        | _ => simp [someText, text, Fit.check, Fit.refuse] at hid
    | _ => simp [record, Fit.refuse] at hrecord

/-- A value whose id cannot be written has a misfit. -/
theorem exists_finds {v : Value} {fit : Fit Node} (h : ofValue v = .ok fit) (hlong : HasLongId v) :
    ∃ m, fit.Finds m := by
  cases fit with
  | fits n =>
    rw [HasLongId, givenId_of_fits h] at hlong
    cases hlong
  | misfits inner =>
    obtain ⟨m, hm⟩ := List.exists_mem_of_ne_nil inner (reasoned_ofValue h inner rfl)
    exact ⟨m, inner, rfl, hm⟩

end Node

/-- A misfit of a node whose id cannot be written is found among the nodes, below its index. -/
theorem finds_nodesFrom {items : List Value} {v : Value} (hlong : HasLongId v) :
    ∀ {start i : Nat} {fit : Fit (List Node)}, nodesFrom start items = .ok fit →
      items[i]? = some v → ∃ place reason, fit.Finds ⟨.item (start + i) :: place, reason⟩ := by
  induction items with
  | nil =>
    intro start i fit _ hi
    cases hi
  | cons w rest ih =>
    intro start i fit h hi
    simp only [nodesFrom] at h
    cases hw : Node.ofValue w with
    | error d => rw [hw] at h; cases h
    | ok first =>
      cases hr : nodesFrom (start + 1) rest with
      | error d => rw [hw, hr] at h; cases h
      | ok others =>
        rw [hw, hr] at h
        cases h
        cases i with
        | zero =>
          obtain rfl : w = v := by simpa using hi
          obtain ⟨m, hm⟩ := Node.exists_finds hw hlong
          exact ⟨m.path, m.reason, ((hm.within (.item start)).map _).left _⟩
        | succ i =>
          obtain ⟨place, reason, hm⟩ := ih hr (i := i) (by simpa using hi)
          -- The indices of the rest begin one later.
          have hshift : start + 1 + i = start + (i + 1) := by omega
          exact ⟨place, reason, hshift ▸ .right _ hm⟩

theorem NodesFit.exists_of_mem {items : List Value} {nodes : List Node} (h : NodesFit items nodes)
    {v : Value} (hv : v ∈ items) : ∃ n, Node.ofValue v = .ok (.fits n) := by
  induction h with
  | nil => cases hv
  | cons hfirst _ ih =>
    rcases List.mem_cons.1 hv with rfl | hrest
    · exact ⟨_, hfirst⟩
    · exact ih hrest

namespace Graph

/-- About a node whose id cannot be written there is a misfit that names the id. -/
theorem exists_namesLongId {items : List Value} {v : Value} {found : List Misfit}
    (h : ofValue (.list items) = .ok (.misfits found)) (hv : v ∈ items) (hlong : HasLongId v) :
    ∃ m ∈ found, namesLongId items m = true := by
  obtain ⟨i, hi⟩ := List.mem_iff_getElem?.1 hv
  rw [ofValue_list] at h
  cases hnodes : nodesFrom 0 items with
  | error d => rw [hnodes] at h; cases h
  | ok fit =>
    rw [hnodes] at h
    obtain ⟨place, reason, hm⟩ := finds_nodesFrom hlong hnodes hi
    obtain ⟨found', hfound, hmem⟩ := (hm.within (.field "nodes")).map Graph.mk
    obtain rfl : found' = found := Fit.misfits.inj (hfound.symm.trans (Except.ok.inj h))
    refine ⟨_, hmem, ?_⟩
    rw [HasLongId] at hlong
    simp [namesLongId, hi, hlong]

/-- **Lines about misfits are written unless an id cannot be.** -/
theorem nodeLines_of_misfits {items : List Value} {found : List Misfit}
    (h : ofValue (.list items) = .ok (.misfits found)) :
    nodeLines (.list items) found =
      if ∃ item ∈ items, HasLongId item then .error .longInteger
      else .ok (found.map (nodeLine items)) := by
  unfold nodeLines
  simp only
  refine if_congr ?_ rfl rfl
  rw [List.any_eq_true]
  constructor
  · rintro ⟨m, -, hm⟩
    -- The node that the line names is one of the list.
    unfold namesLongId at hm
    split at hm
    · obtain ⟨v, hi, hlong⟩ := (Option.any_eq_true _ _).1 hm
      exact ⟨v, List.mem_of_getElem? hi, hlong⟩
    · cases hm
  · rintro ⟨v, hv, hlong⟩
    exact exists_namesLongId h hv hlong

/-- What is written about the misfits of a value, whether it is a list or not. -/
theorem nodeLines_cases {v : Value} {found : List Misfit} (h : ofValue v = .ok (.misfits found)) :
    (¬ ListsLongId v ∧ ∃ lines, nodeLines v found = .ok lines) ∨
      ListsLongId v ∧ nodeLines v found = .error .longInteger := by
  cases v with
  | list items =>
    have hlists : ListsLongId (.list items) ↔ ∃ item ∈ items, HasLongId item :=
      ⟨fun ⟨_, heq, hlong⟩ => Value.list.inj heq ▸ hlong, fun hlong => ⟨items, rfl, hlong⟩⟩
    rw [hlists, nodeLines_of_misfits h]
    by_cases hlong : ∃ item ∈ items, HasLongId item
    · exact Or.inr ⟨hlong, if_pos hlong⟩
    · exact Or.inl ⟨hlong, _, if_neg hlong⟩
  | _ =>
    -- The only misfit is that the value is no list, and its line names no node.
    cases h
    refine Or.inl ⟨?_, _, rfl⟩
    rintro ⟨items, heq, -⟩
    cases heq

/-- The ids of nodes that fit can be written. -/
theorem not_listsLongId_of_fits {v : Value} {g : Graph} (h : ofValue v = .ok (.fits g)) :
    ¬ ListsLongId v := by
  rintro ⟨items, rfl, item, hitem, hlong⟩
  obtain ⟨n, hn⟩ := (ofValue_list_eq_fits_iff.1 h).exists_of_mem hitem
  rw [HasLongId, Node.givenId_of_fits hn] at hlong
  cases hlong

end Graph

end Workgraph
