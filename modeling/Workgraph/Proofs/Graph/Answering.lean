import Workgraph.Proofs.Graph.LongIds
/-!
# Which values can be looked at

The type of a node chooses how the node is read, and it is looked up in the set of known types. A
type that is a list or an object cannot be looked up. Loading and checking break down at the first
such type. They also break down where an id that does not fit cannot be written in the line about
it. For every other value checking has findings, and loading comes to a workflow or to one of the
faults that it reports (`answers_or_breaks_down`).
-/

namespace Workgraph

open Schema

/-- Whether a value is a list or an object. -/
def Value.isCompound : Value → Bool
  | .list _ | .object _ => true
  | _ => false

/-- The faults that loading reports: a reference that leads nowhere, nodes that do not fit, and
structural errors. -/
def Fault.IsOfLoading : Fault → Prop
  | .nodeNotFound .. | .malformed _ | .invalidGraph _ => True
  | _ => False

/-- A value has a list or an object as its type. -/
def HasCompoundType (v type : Value) : Prop :=
  v.field? "type" = some type ∧ type.isCompound = true

/-- The first node of a value whose type is a list or an object has that type. -/
def FirstCompoundType (v type : Value) : Prop :=
  ∃ before item after, v = .list (before ++ item :: after) ∧
    (∀ earlier ∈ before, ∀ t, ¬ HasCompoundType earlier t) ∧ HasCompoundType item type

namespace Node

theorem knownType_eq_error_iff {v : Value} {d : Defect} :
    knownType v = .error d ↔ ∃ type, HasCompoundType v type ∧ d = .unhashable type.kind := by
  unfold knownType HasCompoundType
  cases v.field? "type" with
  | none => simp
  | some type =>
    cases type with
    | list items => simpa [Value.isCompound, Value.kind] using eq_comm
    | object fields => simpa [Value.isCompound, Value.kind] using eq_comm
    | _ => simp [Value.isCompound]

theorem ofValue_eq_error_iff {v : Value} {d : Defect} :
    ofValue v = .error d ↔ ∃ type, HasCompoundType v type ∧ d = .unhashable type.kind := by
  rw [← knownType_eq_error_iff]
  unfold ofValue
  cases knownType v <;> simp [bind, Except.bind, pure, Except.pure]

end Node

theorem nodesFrom_cons_eq_error_iff {index : Nat} {v : Value} {rest : List Value} {d : Defect} :
    nodesFrom index (v :: rest) = .error d ↔
      Node.ofValue v = .error d ∨
        (∃ fit, Node.ofValue v = .ok fit) ∧ nodesFrom (index + 1) rest = .error d := by
  simp only [nodesFrom]
  cases Node.ofValue v with
  | error d' => simp [bind, Except.bind]
  | ok fit =>
    cases nodesFrom (index + 1) rest <;> simp [bind, Except.bind, pure, Except.pure]

/-- Reading nodes breaks down at the first type that is a list or an object, and nowhere else. -/
theorem nodesFrom_eq_error_iff (items : List Value) :
    ∀ (index : Nat) (d : Defect), nodesFrom index items = .error d ↔
      ∃ type, FirstCompoundType (.list items) type ∧ d = .unhashable type.kind := by
  induction items with
  | nil =>
    intro index d
    simp [nodesFrom, FirstCompoundType]
  | cons v rest ih =>
    intro index d
    rw [nodesFrom_cons_eq_error_iff, Node.ofValue_eq_error_iff, ih]
    constructor
    · rintro (⟨type, htype, rfl⟩ | ⟨⟨fit, hfit⟩, type, ⟨before, item, after, hrest, hno, htype⟩, rfl⟩)
      · exact ⟨type, ⟨[], v, rest, rfl, by simp, htype⟩, rfl⟩
      · refine ⟨type, ⟨v :: before, item, after, ?_, ?_, htype⟩, rfl⟩
        · simpa using hrest
        · intro earlier hearlier t ht
          rcases List.mem_cons.1 hearlier with rfl | hmem
          · have herror := Node.ofValue_eq_error_iff.2 ⟨t, ht, rfl⟩
            rw [hfit] at herror
            cases herror
          · exact hno earlier hmem t ht
    · rintro ⟨type, ⟨before, item, after, hsplit, hno, htype⟩, rfl⟩
      cases before with
      | nil =>
        obtain ⟨rfl, rfl⟩ : v = item ∧ rest = after := by simpa using hsplit
        exact Or.inl ⟨type, htype, rfl⟩
      | cons w before =>
        obtain ⟨rfl, hrest⟩ : v = w ∧ rest = before ++ item :: after := by simpa using hsplit
        refine Or.inr ⟨?_, type, ⟨before, item, after, by rw [hrest], ?_, htype⟩, rfl⟩
        · cases hv : Node.ofValue v with
          | ok fit => exact ⟨fit, rfl⟩
          | error d =>
            obtain ⟨t, ht, -⟩ := Node.ofValue_eq_error_iff.1 hv
            exact absurd ht (hno v (by simp) t)
        · exact fun earlier hearlier => hno earlier (by simp [hearlier])

namespace Graph

theorem ofValue_eq_error_iff {v : Value} {d : Defect} :
    ofValue v = .error d ↔ ∃ type, FirstCompoundType v type ∧ d = .unhashable type.kind := by
  cases v with
  | list items =>
    rw [ofValue_list, ← nodesFrom_eq_error_iff items 0]
    cases nodesFrom 0 items <;> simp [Except.map]
  | _ => simp [ofValue, nodesOf, bind, Except.bind, pure, Except.pure, FirstCompoundType]

/-- No type of a value that has been read is a list or an object. -/
theorem not_firstCompoundType_of_ofValue_ok {v : Value} {fit : Fit Graph} (h : ofValue v = .ok fit)
    (type : Value) : ¬ FirstCompoundType v type := by
  intro htype
  have herror := ofValue_eq_error_iff.2 ⟨type, htype, rfl⟩
  rw [h] at herror
  cases herror

theorem isPresent_of_mem {items : List Value} {item : Value} (h : item ∈ items) :
    (Value.list items).isPresent = true := by
  cases items with
  | nil => cases h
  | cons v rest => rfl

/-- A value in which there is something is read when it is checked. -/
theorem findings_of_isPresent {v : Value} (h : v.isPresent = true) : findings v =
    (ofValue v >>= fun fit => match fit with
      | .misfits found => nodeLines v found >>= fun lines => .ok ⟨lines, []⟩
      | .fits g => .ok ⟨g.errors, g.warnings⟩) := by
  unfold findings
  rw [h]
  rfl

/-- A value whose nodes fit is loaded, or has a fault that loading reports. -/
theorem answers_of_fits {v : Value} {g : Graph} (h : ofValue v = .ok (.fits g)) :
    (∃ found, findings v = .ok found) ∧
      ((∃ g, load v = .ok g) ∨ ∃ fault, load v = .error fault ∧ fault.IsOfLoading) := by
  constructor
  · by_cases hpresent : v.isPresent = true
    · rw [findings_of_isPresent hpresent, h]
      exact ⟨_, rfl⟩
    · unfold findings
      simp only [hpresent]
      exact ⟨_, rfl⟩
  · rcases load_of_fits h with ⟨-, hload⟩ | ⟨n, target, -, hload⟩ | ⟨-, -, hload⟩
    · exact Or.inl ⟨g, hload⟩
    · exact Or.inr ⟨_, hload, trivial⟩
    · exact Or.inr ⟨_, hload, trivial⟩

/-- Where there are misfits, loading and checking come to an answer if lines are written about
them, and otherwise break down. -/
theorem answers_of_misfits {v : Value} {misfits : List Misfit}
    (h : ofValue v = .ok (.misfits misfits)) :
    (¬ ListsLongId v ∧ (∃ found, findings v = .ok found) ∧
        ∃ fault, load v = .error fault ∧ fault.IsOfLoading) ∨
      ListsLongId v ∧ findings v = .error .longInteger ∧
        load v = .error (.defect .longInteger) := by
  rcases nodeLines_cases h with ⟨hshort, lines, hlines⟩ | ⟨hlong, hlines⟩
  · refine Or.inl ⟨hshort, ?_, .malformed lines, by simp only [load, h, hlines], trivial⟩
    by_cases hpresent : v.isPresent = true
    · rw [findings_of_isPresent hpresent, h]
      simp only [bind, Except.bind, hlines]
      exact ⟨_, rfl⟩
    · unfold findings
      simp only [hpresent]
      exact ⟨_, rfl⟩
  · refine Or.inr ⟨hlong, ?_, by simp only [load, h, hlines]⟩
    obtain ⟨items, rfl, item, hitem, -⟩ := hlong
    rw [findings_of_isPresent (isPresent_of_mem hitem), h]
    simp only [bind, Except.bind, hlines]

/-- **Loading and checking come to an answer unless a type is a list or an object, or an id cannot be
written.** Either no node has such a type or such an id, the value has findings, and it is loaded or
has a fault that loading reports; or both break down because the first such type cannot be looked
up; or no node has such a type, but an id holds an integer with more digits than are converted, and
both break down because the line about it cannot be written. -/
theorem answers_or_breaks_down (v : Value) :
    ((∀ type, ¬ FirstCompoundType v type) ∧ ¬ ListsLongId v ∧ (∃ found, findings v = .ok found) ∧
        ((∃ g, load v = .ok g) ∨ ∃ fault, load v = .error fault ∧ fault.IsOfLoading)) ∨
      (∃ type, FirstCompoundType v type ∧ findings v = .error (.unhashable type.kind) ∧
        load v = .error (.defect (.unhashable type.kind))) ∨
      ((∀ type, ¬ FirstCompoundType v type) ∧ ListsLongId v ∧ findings v = .error .longInteger ∧
        load v = .error (.defect .longInteger)) := by
  cases hv : ofValue v with
  | ok fit =>
    have htypes := not_firstCompoundType_of_ofValue_ok hv
    cases fit with
    | fits g => exact Or.inl ⟨htypes, not_listsLongId_of_fits hv, answers_of_fits hv⟩
    | misfits misfits =>
      rcases answers_of_misfits hv with ⟨hshort, hfindings, hload⟩ | ⟨hlong, hfindings, hload⟩
      · exact Or.inl ⟨htypes, hshort, hfindings, Or.inr hload⟩
      · exact Or.inr (Or.inr ⟨htypes, hlong, hfindings, hload⟩)
  | error d =>
    obtain ⟨type, htype, rfl⟩ := ofValue_eq_error_iff.1 hv
    refine Or.inr (Or.inl ⟨type, htype, ?_, by rw [load, hv]⟩)
    -- A value with a node is present, so that it is read when it is checked.
    obtain ⟨before, item, after, rfl, -, -⟩ := htype
    have hitem : item ∈ before ++ item :: after := List.mem_append_right before List.mem_cons_self
    rw [findings_of_isPresent (isPresent_of_mem hitem), hv]
    rfl

/-- A node whose type is a list that holds the name of a type. -/
def listedType : Value :=
  .list [.object [("id", .text "a"), ("type", .list [.text "trigger"])]]

/-- Neither checking nor loading comes to an answer about this node. -/
theorem listedType_breaks_down :
    (¬ ∃ found, findings listedType = .ok found) ∧
      ¬ ((∃ g, load listedType = .ok g) ∨
        ∃ fault, load listedType = .error fault ∧ fault.IsOfLoading) := by
  have hfirst : FirstCompoundType listedType (.list [.text "trigger"]) :=
    ⟨[], _, [], rfl, by simp, rfl, rfl⟩
  have hread : ofValue listedType = .error (.unhashable "list") :=
    ofValue_eq_error_iff.2 ⟨_, hfirst, rfl⟩
  have hload : load listedType = .error (.defect (.unhashable "list")) := by rw [load, hread]
  have hfindings : findings listedType = .error (.unhashable "list") := by
    rw [findings, hread]
    rfl
  rw [hload, hfindings]
  simp [Fault.IsOfLoading]

end Graph

end Workgraph
