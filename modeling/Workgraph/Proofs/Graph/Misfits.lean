import Workgraph.Proofs.Entries
import Workgraph.Proofs.Graph.LongIds
import Workgraph.Proofs.Schema.Locating
/-!
# Lines about misfits among nodes

The path of a misfit among nodes names the node by its index, then the kind of the node, and then
the place inside the node. The line leaves the kind out, and with it every other step that is named
like a kind. There is such a step only where a database node has a filter that is no dictionary, and
where a call has a header that is named like a kind and is no text; all other lines have the whole
place (`misfits_point`).
-/

namespace Workgraph

open Schema Fit

/-- Whether a step is named like a kind of node. -/
def Schema.Step.isKind : Step → Bool
  | .field name => Task.typeNames.contains name || name = "unknown"
  | .item _ => false

/-- No step is named like a kind. -/
def Clear (place : List Step) : Prop := ∀ step ∈ place, step.isKind = false

instance : DecidablePred Clear := fun place =>
  inferInstanceAs (Decidable (∀ step ∈ place, step.isKind = false))

/-- The place points at what is wrong, and no step of it is named like a kind. -/
def Plain (v : Value) (place : List Step) (reason : Reason) : Prop :=
  PointsAt v place reason ∧ Clear place

theorem Clear.nil : Clear [] := fun _ h => by cases h

theorem Clear.cons {step : Step} {place : List Step} (hstep : step.isKind = false)
    (h : Clear place) : Clear (step :: place) := by
  rintro s (_ | ⟨_, hs⟩)
  · exact hstep
  · exact h s hs

theorem Plain.of_whole {v : Value} {place : List Step} {reason : Reason}
    (h : Whole v place reason) : Plain v place reason := by
  obtain ⟨rfl, hreason⟩ := h
  exact ⟨.here hreason, .nil⟩

/-! ## Parts without steps that are named like a kind -/

section Parts

variable {α : Type} {part : Value → Fit α} (hpart : ∀ v, (part v).Each (Plain v))

include hpart

theorem plain_list (v : Value) : (list part v).Each (Plain v) := by
  refine each_list hpart (fun h => ⟨.here (.list h), .nil⟩) ?_
  rintro items i w rfl hw place reason ⟨hpoints, hclear⟩
  exact ⟨.item hw hpoints, hclear.cons rfl⟩

theorem plain_fieldOr {missing : Fit α} {wire other : String} {fields : Entries Value}
    (hmissing : fields.get? wire = none → missing.Each (Plain (.object fields)))
    (hnames : Clear [.field wire, .field other]) :
    (fieldOr missing wire other part fields).Each (Plain (.object fields)) := by
  refine each_fieldOr hpart hmissing ?_
  rintro name v hname hv place reason ⟨hpoints, hclear⟩
  refine ⟨.field (Entries.mem_of_get? hv) hpoints, hclear.cons (hnames _ ?_)⟩
  rcases hname with rfl | rfl
  · exact List.mem_cons_self
  · exact List.mem_cons_of_mem _ List.mem_cons_self

theorem plain_optionalField {default : α} {wire other : String} {fields : Entries Value}
    (hnames : Clear [.field wire, .field other]) :
    (optionalField default wire other part fields).Each (Plain (.object fields)) :=
  plain_fieldOr hpart (fun _ => .fits default) hnames

theorem plain_requiredField {wire other : String} {fields : Entries Value}
    (hnames : Clear [.field wire, .field other]) :
    (requiredField wire other part fields).Each (Plain (.object fields)) :=
  plain_fieldOr hpart
    (fun hnone => .missing ⟨.absent hnone, Clear.nil.cons (hnames _ List.mem_cons_self)⟩) hnames

theorem plain_nullableField {wire other : String} {fields : Entries Value}
    (hnames : Clear [.field wire, .field other]) :
    (nullableField wire other part fields).Each (Plain (.object fields)) :=
  plain_optionalField (each_nullable hpart) hnames

end Parts

theorem plain_record {α : Type} {parts : Entries Value → Fit α} {name : String}
    (hparts : ∀ fields, (parts fields).Each (Plain (.object fields))) (v : Value) :
    (record name parts v).Each (Plain v) := by
  refine each_record (fun h => ⟨.here (.record h), .nil⟩) ?_
  rintro fields rfl
  exact hparts fields

theorem plain_text (v : Value) : (text v).Each (Plain v) :=
  (each_text v).mono fun _ _ => .of_whole

theorem plain_someText (v : Value) : (someText v).Each (Plain v) :=
  (each_someText v).mono fun _ _ => .of_whole

theorem plain_any (v : Value) : (any v).Each (Plain v) := each_any v

theorem plain_integerFrom (bound : Nat) (v : Value) : (integerFrom bound v).Each (Plain v) :=
  (each_integerFrom bound v).mono fun _ _ => .of_whole

theorem plain_realFrom (bound : Nat) (v : Value) : (realFrom bound v).Each (Plain v) :=
  (each_realFrom bound v).mono fun _ _ => .of_whole

theorem plain_among {α : Type} {names : List String} {ofName? : String → Option α}
    (hnames : ∀ s ∈ names, (ofName? s).isSome = true) (v : Value) :
    (among names ofName? v).Each (Plain v) :=
  (each_among hnames v).mono fun _ _ => .of_whole

/-- A dictionary of any values is only wrong as a whole. -/
theorem plain_dictionary_any (v : Value) : (dictionary any v).Each (Plain v) := by
  have hvalue : ∀ w, (any w).Each fun _ _ => False := fun w => each_any w
  refine each_dictionary hvalue (fun h => ⟨.here (.dictionary h), .nil⟩) ?_
  rintro fields k w - - place reason ⟨⟩

/-! ## Nodes -/

theorem Condition.plain_ofFields (fields : Entries Value) :
    (Condition.ofFields fields).Each (Plain (.object fields)) := by
  refine (((Each.map ?field _).seq ?operator).seq ?value).seq ?thenNodeId
  case field => exact plain_nullableField plain_text (by decide)
  case operator => exact plain_nullableField (plain_among (by decide)) (by decide)
  case value => exact plain_optionalField plain_any (by decide)
  case thenNodeId => exact plain_nullableField plain_text (by decide)

theorem plain_conditionList (v : Value) : (conditionList v).Each (Plain v) :=
  plain_list (plain_record Condition.plain_ofFields) v

theorem plain_pathNode (fields : Entries Value) : (pathNode fields).Each (Plain (.object fields)) :=
  plain_nullableField plain_text (by decide)

theorem TransformStep.plain_ofFields (fields : Entries Value) :
    (TransformStep.ofFields fields).Each (Plain (.object fields)) := by
  refine (Each.map ?type _).seq ?params
  case type => exact plain_requiredField plain_text (by decide)
  case params => exact plain_optionalField plain_dictionary_any (by decide)

/-- The places inside a node of which a step is named like a kind: the filter of a database node,
and a header of a call. -/
def Overshadowed (kind : String) (place : List Step) : Prop :=
  kind = "database_query" ∧ place = [.field "config", .field "filter"] ∨
    kind = "api_call" ∧ ∃ key, (Step.field key).isKind = true ∧
      place = [.field "config", .field "headers", .field key]

/-- A place behind some steps into a node points at what is wrong, and either no step of it is named
like a kind or it is one of the exceptions. -/
def Told (into : List Step) (kind : String) (v : Value) (place : List Step) (reason : Reason) :
    Prop :=
  PointsAt v place reason ∧ (Clear place ∨ Overshadowed kind (into ++ place))

theorem Told.of_plain {into : List Step} {kind : String} {v : Value} (place : List Step)
    (reason : Reason) (h : Plain v place reason) : Told into kind v place reason :=
  ⟨h.1, .inl h.2⟩

namespace Task

/-- The headers of a call are the texts of a dictionary. -/
theorem told_headers (fields : Entries Value) :
    (optionalField [] "headers" "headers" (dictionary text) fields).Each
      (Told [.field "config"] "api_call" (.object fields)) := by
  -- Wrong is the dictionary as a whole, or one of its values under its name.
  have hheaders : ∀ v, (dictionary text v).Each fun place reason =>
      PointsAt v place reason ∧ (place = [] ∨ ∃ key, place = [.field key]) := by
    intro v
    refine each_dictionary each_text (fun h => ⟨.here (.dictionary h), .inl rfl⟩) ?_
    rintro entries k w rfl hmem place reason ⟨rfl, hreason⟩
    exact ⟨.field hmem (.here hreason), .inr ⟨k, rfl⟩⟩
  refine each_fieldOr hheaders (fun _ => .fits []) ?_
  rintro name v hname hv place reason ⟨hpoints, hplace⟩
  obtain rfl : name = "headers" := or_self_iff.1 hname
  refine ⟨.field (Entries.mem_of_get? hv) hpoints, ?_⟩
  rcases hplace with rfl | ⟨key, rfl⟩
  · exact .inl (Clear.nil.cons (by decide))
  -- The names of headers are free, so any of them can be that of a kind.
  · cases hkey : (Step.field key).isKind with
    | false => exact .inl ((Clear.nil.cons hkey).cons (by decide))
    | true => exact .inr (.inr ⟨rfl, key, hkey, rfl⟩)

theorem told_apiCallOfFields (fields : Entries Value) :
    (apiCallOfFields fields).Each (Told [.field "config"] "api_call" (.object fields)) := by
  refine ((((Each.map ?method _).seq ?url).seq ?headers).seq ?body).seq ?responseVariableName
  case method => exact (plain_optionalField plain_text (by decide)).mono Told.of_plain
  case url => exact (plain_requiredField plain_someText (by decide)).mono Told.of_plain
  case headers => exact told_headers fields
  case body => exact (plain_optionalField plain_any (by decide)).mono Told.of_plain
  case responseVariableName =>
    exact (plain_nullableField plain_text (by decide)).mono Told.of_plain

/-- The filter of a database node is a dictionary of any values. -/
theorem told_filter (fields : Entries Value) :
    (nullableField "filter" "filter" (dictionary any) fields).Each
      (Told [.field "config"] "database_query" (.object fields)) := by
  -- The values under the names fit whatever they are.
  have hfilter : ∀ v, (nullable (dictionary any) v).Each (Whole v) := by
    intro v
    have hvalue : ∀ w, (any w).Each fun _ _ => False := fun w => each_any w
    refine each_nullable (fun w => each_dictionary hvalue (fun h => ⟨rfl, .dictionary h⟩) ?_) v
    rintro fields k w - - place reason ⟨⟩
  refine each_fieldOr hfilter (fun _ => .fits none) ?_
  rintro name v hname hv place reason ⟨rfl, hreason⟩
  obtain rfl : name = "filter" := or_self_iff.1 hname
  exact ⟨.field (Entries.mem_of_get? hv) (.here hreason), .inr (.inl ⟨rfl, rfl⟩)⟩

theorem told_databaseQueryOfFields (fields : Entries Value) :
    (databaseQueryOfFields fields).Each
      (Told [.field "config"] "database_query" (.object fields)) := by
  refine ((((Each.map ?entityName _).seq ?operation).seq ?filter).seq ?data).seq ?variableName
  case entityName => exact (plain_requiredField plain_someText (by decide)).mono Told.of_plain
  case operation =>
    exact (plain_nullableField (plain_among (by decide)) (by decide)).mono Told.of_plain
  case filter => exact told_filter fields
  case data => exact (plain_nullableField plain_dictionary_any (by decide)).mono Told.of_plain
  case variableName => exact (plain_nullableField plain_text (by decide)).mono Told.of_plain

/-- The other types have no exceptions. -/
theorem plain_ofFields {type : String} (hcall : type ≠ "api_call")
    (hquery : type ≠ "database_query") (fields : Entries Value) :
    (Task.ofFields type fields).Each (Plain (.object fields)) := by
  unfold Task.ofFields
  split
  case h_1 => exact .fits _
  case h_2 =>
    refine (Each.map ?conditions _).seq ?elseNodeId
    case conditions => exact plain_optionalField plain_conditionList (by decide)
    case elseNodeId => exact plain_nullableField plain_text (by decide)
  case h_3 =>
    refine (((Each.map ?arrayField _).seq ?itemVariableName).seq ?loopNodeId).seq ?maxIterations
    case arrayField => exact plain_nullableField plain_text (by decide)
    case itemVariableName => exact plain_nullableField plain_text (by decide)
    case loopNodeId => exact plain_nullableField plain_text (by decide)
    case maxIterations => exact plain_nullableField (plain_integerFrom 0) (by decide)
  case h_4 =>
    exact (plain_optionalField (plain_list (plain_record plain_pathNode)) (by decide)).map _
  case h_5 => exact absurd rfl hcall
  case h_6 => exact absurd rfl hquery
  case h_7 =>
    refine ((Each.map ?sourceVariable _).seq ?transformations).seq ?outputVariable
    case sourceVariable => exact plain_nullableField plain_text (by decide)
    case transformations =>
      exact plain_optionalField (plain_list (plain_record TransformStep.plain_ofFields)) (by decide)
    case outputVariable => exact plain_nullableField plain_text (by decide)
  case h_8 =>
    refine ((Each.map ?arrayVariable _).seq ?conditions).seq ?outputVariable
    case arrayVariable => exact plain_nullableField plain_text (by decide)
    case conditions => exact plain_optionalField plain_conditionList (by decide)
    case outputVariable => exact plain_nullableField plain_text (by decide)
  case h_9 =>
    refine (Each.map ?duration _).seq ?unit
    case duration => exact plain_optionalField (fun v => (plain_realFrom 0 v).map some) (by decide)
    case unit => exact plain_optionalField (plain_among (by decide)) (by decide)
  case h_10 => exact .fits _

theorem told_ofFields (type : String) (fields : Entries Value) :
    (Task.ofFields type fields).Each (Told [.field "config"] type (.object fields)) := by
  by_cases hcall : type = "api_call"
  · rw [hcall]
    exact told_apiCallOfFields fields
  by_cases hquery : type = "database_query"
  · rw [hquery]
    exact told_databaseQueryOfFields fields
  exact (plain_ofFields hcall hquery fields).mono Told.of_plain

/-- A type whose configuration may be missing makes do without fields. -/
theorem ofFields_nil {type : String} (h : Task.needsConfig type = false) :
    ∃ task, Task.ofFields type [] = .fits task := by
  unfold Task.ofFields
  split
  · exact ⟨_, rfl⟩
  · exact ⟨_, rfl⟩
  · exact ⟨_, rfl⟩
  · exact ⟨_, rfl⟩
  · exact absurd h (by decide)
  · exact absurd h (by decide)
  · exact ⟨_, rfl⟩
  · exact ⟨_, rfl⟩
  · exact ⟨_, rfl⟩
  · exact ⟨_, rfl⟩

end Task

namespace Behaviour

theorem told_ofConfig (type : String) (fields : Entries Value) :
    (Behaviour.ofConfig type fields).Each (Told [.field "config"] type (.object fields)) := by
  refine (Each.map ?next _).seq ?task
  case next => exact (plain_nullableField plain_text (by decide)).mono Told.of_plain
  case task => exact Task.told_ofFields type fields

theorem told_knownOfFields (type : String) (fields : Entries Value) :
    (Behaviour.knownOfFields type fields).Each (Told [] type (.object fields)) := by
  have hconfig : ∀ v, (record (Task.configName type) (ofConfig type) v).Each
      (Told [.field "config"] type v) := by
    intro v
    refine each_record (fun h => ⟨.here (.record h), .inl .nil⟩) ?_
    rintro config rfl
    exact told_ofConfig type config
  have hfield : ∀ name v, name = "config" ∨ name = "config" → fields.get? name = some v →
      ∀ place reason, Told [.field "config"] type v place reason →
        Told [] type (.object fields) (.field name :: place) reason := by
    rintro name v hname hv place reason ⟨hpoints, hplace⟩
    obtain rfl : name = "config" := or_self_iff.1 hname
    refine ⟨.field (Entries.mem_of_get? hv) hpoints, hplace.imp_left fun hclear => ?_⟩
    exact hclear.cons (by decide)
  unfold knownOfFields
  dsimp only
  split
  · refine each_fieldOr hconfig (fun hnone => .missing ?_) hfield
    exact ⟨.absent hnone, .inl (Clear.nil.cons (by decide))⟩
  -- Without a configuration nothing is read that could be wrong.
  · rename_i hneeds
    refine each_fieldOr hconfig (fun _ => ?_) hfield
    obtain ⟨task, htask⟩ := Task.ofFields_nil (Bool.eq_false_iff.2 hneeds)
    have hfits : ofConfig type [] = .fits (.known task none) := by
      rw [ofConfig, htask]
      rfl
    rw [hfits]
    exact .fits _

theorem plain_unknownOfFields (fields : Entries Value) :
    (Behaviour.unknownOfFields fields).Each (Plain (.object fields)) := by
  refine (Each.map ?type _).seq ?config
  case type => exact plain_requiredField plain_text (by decide)
  case config => exact plain_optionalField plain_dictionary_any (by decide)

end Behaviour

namespace Node

theorem told_ofFields (known : Option String) (fields : Entries Value) :
    (Node.ofFields known fields).Each (Told [] (kindName known) (.object fields)) := by
  refine ((Each.map ?id _).seq ?name).seq ?behaviour
  case id => exact (plain_requiredField plain_someText (by decide)).mono Told.of_plain
  case name => exact (plain_nullableField plain_text (by decide)).mono Told.of_plain
  case behaviour =>
    cases known with
    | some type => exact Behaviour.told_knownOfFields type fields
    | none => exact (Behaviour.plain_unknownOfFields fields).mono Told.of_plain

/-- The misfits of a node are told by its kind first. -/
theorem told_ofValue {v : Value} {fit : Fit Node} (h : Node.ofValue v = .ok fit) :
    ∃ known, knownType v = .ok known ∧ fit.Each fun path reason =>
      ∃ place, path = .field (kindName known) :: place ∧
        Told [] (kindName known) v place reason := by
  unfold Node.ofValue at h
  cases hknown : knownType v with
  | error d =>
    rw [hknown] at h
    cases h
  | ok known =>
    rw [hknown] at h
    cases h
    refine ⟨known, rfl, ?_⟩
    have hnode : (record (recordName known) (ofFields known) v).Each
        (Told [] (kindName known) v) := by
      refine each_record (fun h => ⟨.here (.record h), .inl .nil⟩) ?_
      rintro fields rfl
      exact told_ofFields known fields
    exact hnode.within fun place reason hplace => ⟨place, rfl, hplace⟩

/-- The kind of a node is a step that is named like a kind. -/
theorem isKind_kindName {v : Value} {known : Option String} (h : knownType v = .ok known) :
    (Step.field (kindName known)).isKind = true := by
  cases known with
  | none => rfl
  | some type =>
    have hname : Task.typeNames.contains type = true := by
      unfold knownType at h
      split at h
      · split at h
        · cases h
          assumption
        · cases h
      · cases h
      · cases h
      · cases h
    rw [kindName, Option.getD_some, Step.isKind, hname, Bool.true_or]

end Node

theorem told_nodesFrom {items : List Value} : ∀ {start : Nat} {fit : Fit (List Node)},
    nodesFrom start items = .ok fit → fit.Each fun path reason =>
      ∃ i v known place, items[i]? = some v ∧ Node.knownType v = .ok known ∧
        path = .item (start + i) :: .field (Node.kindName known) :: place ∧
        Told [] (Node.kindName known) v place reason := by
  induction items with
  | nil =>
    intro start fit h
    cases h
    exact .fits []
  | cons v rest ih =>
    intro start fit h
    simp only [nodesFrom] at h
    cases hv : Node.ofValue v with
    | error d => rw [hv] at h; cases h
    | ok first =>
      cases hr : nodesFrom (start + 1) rest with
      | error d => rw [hv, hr] at h; cases h
      | ok others =>
        rw [hv, hr] at h
        cases h
        obtain ⟨known, hknown, hfirst⟩ := Node.told_ofValue hv
        -- The indices of the rest begin one later.
        refine ((hfirst.within ?_).map _).seq ((ih hr).mono ?_)
        · rintro path reason ⟨place, rfl, htold⟩
          exact ⟨0, v, known, place, rfl, hknown, rfl, htold⟩
        · rintro path reason ⟨i, w, known, place, hw, hknown, rfl, htold⟩
          have hshift : start + 1 + i = start + (i + 1) := by omega
          exact ⟨i + 1, w, known, place, hw, hknown, by rw [hshift], htold⟩

/-- Every misfit among nodes leads into the node at its index. -/
theorem Graph.exists_told {items : List Value} {found : List Misfit}
    (h : Graph.ofValue (.list items) = .ok (.misfits found)) {m : Misfit} (hm : m ∈ found) :
    ∃ index v known place, items[index]? = some v ∧ Node.knownType v = .ok known ∧
      m.path = .field "nodes" :: .item index :: .field (Node.kindName known) :: place ∧
      Told [] (Node.kindName known) v place m.reason := by
  rw [Graph.ofValue_list] at h
  cases hnodes : nodesFrom 0 items with
  | error d => rw [hnodes] at h; cases h
  | ok fit =>
    rw [hnodes] at h
    have hwithin : (fit.within (.field "nodes")).Each fun path reason =>
        ∃ index v known place, items[index]? = some v ∧ Node.knownType v = .ok known ∧
          path = .field "nodes" :: .item index :: .field (Node.kindName known) :: place ∧
          Told [] (Node.kindName known) v place reason := by
      refine (told_nodesFrom hnodes).within ?_
      rintro path reason ⟨i, v, known, place, hv, hknown, rfl, htold⟩
      exact ⟨i, v, known, place, hv, hknown, by rw [Nat.zero_add], htold⟩
    exact (hwithin.map Graph.mk) found (Except.ok.inj h) m hm

/-! ## Lines -/

/-- A line leaves out the steps that are named like a kind. -/
theorem nodeLine_eq (items : List Value) {m : Misfit} {index : Nat} {rest : List Step}
    (hpath : m.path = .field "nodes" :: .item index :: rest) :
    nodeLine items m = nodePrefix items index ++ ": " ++
      (⟨rest.filter fun s => !s.isKind, m.reason⟩ : Misfit).line := by
  unfold nodeLine
  rw [hpath]
  refine congrArg (fun shown => nodePrefix items index ++ ": " ++
    (⟨shown, m.reason⟩ : Misfit).line) (List.filter_congr fun s _ => ?_)
  cases s with
  | field name => simp [Step.isKind]
  | item i => rfl

theorem Clear.filter_eq {place : List Step} (h : Clear place) :
    (place.filter fun s => !s.isKind) = place := by
  refine List.filter_eq_self.2 fun s hs => ?_
  rw [h s hs]
  rfl

theorem line_of_ne {place : List Step} {reason : Reason}
    (h : ".".intercalate (place.map Step.text) ≠ "") :
    (⟨place, reason⟩ : Misfit).line =
      ".".intercalate (place.map Step.text) ++ ": " ++ reason.words := by
  unfold Misfit.line
  exact if_neg h

/-- Texts of different lengths before the same words make different lines. -/
theorem append_words_ne {a b words : String} (h : a.length ≠ b.length) :
    a ++ ": " ++ words ≠ b ++ ": " ++ words := by
  intro heq
  have hlength := congrArg String.length heq
  simp only [String.length_append] at hlength
  omega

/-- Where a step is named like a kind, the line has not the whole place. -/
theorem Overshadowed.line_ne {kind : String} {place : List Step} (h : Overshadowed kind place)
    (reason : Reason) :
    (⟨place.filter fun s => !s.isKind, reason⟩ : Misfit).line ≠
      (⟨place, reason⟩ : Misfit).line := by
  rcases h with ⟨-, rfl⟩ | ⟨-, key, hkey, rfl⟩
  · have hshown : ([.field "config", .field "filter"] : List Step).filter (fun s => !s.isKind) =
        [.field "config"] := by decide
    rw [hshown, line_of_ne (by decide), line_of_ne (by decide)]
    exact append_words_ne (by decide)
  · have hshown : ([.field "config", .field "headers", .field key] : List Step).filter
        (fun s => !s.isKind) = [.field "config", .field "headers"] := by
      rw [List.filter_cons_of_pos (by decide), List.filter_cons_of_pos (by decide),
        List.filter_cons_of_neg (by rw [hkey]; decide), List.filter_nil]
    have hwhole : ".".intercalate
        (([.field "config", .field "headers", .field key] : List Step).map Step.text) =
          "config.headers." ++ key := by
      rfl
    rw [hshown, line_of_ne (by decide), line_of_ne (by rw [hwhole]; simp), hwhole]
    refine append_words_ne ?_
    rw [String.length_append]
    have hshort : (".".intercalate
        (([.field "config", .field "headers"] : List Step).map Step.text)).length = 14 := by decide
    have hlong : "config.headers.".length = 15 := by decide
    omega

/-- **Lines about misfits point at what is wrong.** If nodes do not fit, a line is written about
each misfit, unless the id of a node cannot be written. The line begins with the node at its index,
and its place leads from that node to the part that is wrong or missing. All steps of the place are
in the line but those that are named like a kind, so the line has the whole place unless the filter
of a database node is no dictionary, or a header of a call that is named like a kind is no text. -/
theorem misfits_point (items : List Value) (found : List Misfit)
    (h : Graph.ofValue (.list items) = .ok (.misfits found)) :
    (findings (.list items) =
        if ∃ item ∈ items, HasLongId item then .error .longInteger
        else .ok ⟨found.map (nodeLine items), []⟩) ∧
      ∀ m ∈ found, ∃ index v known place, items[index]? = some v ∧
        Node.knownType v = .ok known ∧
        m.path = .field "nodes" :: .item index :: .field (Node.kindName known) :: place ∧
        PointsAt v place m.reason ∧
        nodeLine items m = nodePrefix items index ++ ": " ++
          (⟨place.filter fun s => !s.isKind, m.reason⟩ : Misfit).line ∧
        (nodeLine items m = nodePrefix items index ++ ": " ++ (⟨place, m.reason⟩ : Misfit).line ↔
          ¬ Overshadowed (Node.kindName known) place) := by
  refine ⟨?_, fun m hm => ?_⟩
  · cases items with
    | nil => cases h
    | cons v rest =>
      have hpresent : (!(Value.list (v :: rest)).isPresent) = false := rfl
      unfold findings
      rw [hpresent, h]
      simp only [Bool.false_eq_true, if_false, bind, Except.bind, Graph.nodeLines_of_misfits h]
      split_ifs <;> rfl
  · obtain ⟨index, v, known, place, hnode, hkind, hpath, hpoints, hplace⟩ :=
      Graph.exists_told h hm
    have hline := nodeLine_eq items hpath
    -- The kind of the node is left out in every case.
    rw [List.filter_cons_of_neg (by rw [Node.isKind_kindName hkind]; decide)] at hline
    refine ⟨index, v, known, place, hnode, hkind, hpath, hpoints, hline, ?_⟩
    constructor
    · intro hwhole hover
      rw [hline] at hwhole
      exact hover.line_ne m.reason (String.append_right_inj _ |>.1 hwhole)
    · intro hno
      rw [hline, (hplace.resolve_right hno).filter_eq]

/-- A call without an address and with two headers that are numbers, one of them named like a
kind. -/
def strayCall : List Value :=
  [.object [("id", .text "send"), ("type", .text "api_call"), ("config", .object
    [("headers", .object [("accept", .int 1), ("output", .int 2)])])]]

/-- Three lines are written, of which the last does not name the header. -/
theorem strayCall_lines : ∃ found, Graph.ofValue (.list strayCall) = .ok (.misfits found) ∧
    found.map (nodeLine strayCall) =
      ["Node 'send': config.url: Field required",
        "Node 'send': config.headers.accept: Input should be a valid string",
        "Node 'send': config.headers: Input should be a valid string"] ∧
    findings (.list strayCall) = .ok ⟨found.map (nodeLine strayCall), []⟩ := by
  have hread : Graph.ofValue (.list strayCall) = .ok (.misfits
      [⟨[.field "nodes", .item 0, .field "api_call", .field "config", .field "url"], .missing⟩,
        ⟨[.field "nodes", .item 0, .field "api_call", .field "config", .field "headers",
          .field "accept"], .notText⟩,
        ⟨[.field "nodes", .item 0, .field "api_call", .field "config", .field "headers",
          .field "output"], .notText⟩]) := by rfl
  have hfindings := (misfits_point _ _ hread).1
  rw [if_neg (by decide)] at hfindings
  exact ⟨_, hread, by decide +kernel, hfindings⟩

/-- A database node whose filter is a number. -/
def strayFilter : List Value :=
  [.object [("id", .text "q"), ("type", .text "database_query"),
    ("config", .object [("entityName", .text "dogs"), ("filter", .int 5)])]]

/-- The misfit is the filter, and the line does not name it. -/
theorem strayFilter_line :
    Graph.ofValue (.list strayFilter) = .ok (.misfits
        [⟨[.field "nodes", .item 0, .field "database_query", .field "config", .field "filter"],
          .notDictionary⟩]) ∧
      findings (.list strayFilter) =
        .ok ⟨["Node 'q': config: Input should be a valid dictionary"], []⟩ :=
  ⟨by rfl, by decide +kernel⟩

end Workgraph
