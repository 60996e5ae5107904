import Workgraph.Display.Drawing
import Workgraph.Proofs.Number.DigitText
/-!
# The words for references

A reference keeps the place at which the configuration holds it, with the index of a condition or a
path written out in brackets. The words for the reference are looked up by that place: the index is
cut out and read back. It comes back as it was written, so the words describe the very condition or
path from which the reference stems, and only a value that cannot be written leaves a reference
without words (`references_read_back`).
-/

namespace Workgraph

/-! ## Indices in brackets -/

/-- A place in a list, letter by letter. -/
theorem toList_listPlace (list field : String) (index : Nat) :
    (listPlace list field index).toList =
      (list.toList ++ ['[']) ++ (Nat.toDigits 10 index ++ ']' :: '.' :: field.toList) := by
  simp [listPlace, digitsText, String.toList_append]

/-- Digits hold no closing bracket. -/
theorem ne_bracket_of_mem_digits {index : Nat} {c : Char} (h : c ∈ Nat.toDigits 10 index) :
    c ≠ ']' := by
  rintro rfl
  exact absurd (Json.allDigits_toDigits index _ h) (by decide)

theorem decimalNat_toDigits (index : Nat) : decimalNat (Nat.toDigits 10 index) = index :=
  Nat.ofDigitChars_ten_toDigits

/-- The digits of an index are read as that index. -/
theorem notNumeral_toDigits (index : Nat) :
    ((Nat.toDigits 10 index).isEmpty || !(Nat.toDigits 10 index).all Char.isDigit) = false := by
  have hall : (Nat.toDigits 10 index).all Char.isDigit = true :=
    List.all_eq_true.2 (Json.allDigits_toDigits index)
  simp [hall, Nat.toDigits_ne_nil]

/-- The first occurrence of a letter stands behind the letters before it. -/
theorem idxOf?_append_cons {c : Char} {before : List Char} (h : c ∉ before) (behind : List Char) :
    (before ++ c :: behind).idxOf? c = some before.length := by
  induction before with
  | nil => simp [List.idxOf?_cons]
  | cons b before ih =>
    rw [List.mem_cons, not_or] at h
    have hb : (b == c) = false := beq_false_of_ne (Ne.symm h.1)
    rw [List.cons_append, List.idxOf?_cons, hb, ih h.2]
    rfl

/-- The index of a place in a list is read back if the name of the list holds no bracket. -/
theorem bracketNumber_listPlace {list : String} (hlist : ']' ∉ list.toList) (field : String)
    (index : Nat) : bracketNumber (list.toList ++ ['[']).length (listPlace list field index) =
      .ok index := by
  -- The first closing bracket is the one behind the digits.
  have hbefore : ']' ∉ (list.toList ++ ['[']) ++ Nat.toDigits 10 index := by
    rw [List.mem_append, List.mem_append, not_or, not_or]
    exact ⟨⟨hlist, by decide⟩, fun h => ne_bracket_of_mem_digits h rfl⟩
  unfold bracketNumber
  rw [toList_listPlace, ← List.append_assoc, idxOf?_append_cons hbefore]
  simp only [List.take_left, List.drop_left, notNumeral_toDigits, Bool.false_eq_true, if_false,
    decimalNat_toDigits]

theorem placeIndex?_listPlace (list field : String) (index : Nat) :
    placeIndex? list (listPlace list field index) = some index := by
  have hstart : (list ++ "[").toList = list.toList ++ ['['] := String.toList_append
  have hbegins : (list ++ "[").toList.isPrefixOf (listPlace list field index).toList = true := by
    rw [List.isPrefixOf_iff_prefix, toList_listPlace, hstart]
    exact List.prefix_append _ _
  have hdigits : ((listPlace list field index).toList.drop (list ++ "[").toList.length).takeWhile
      (· ≠ ']') = Nat.toDigits 10 index := by
    rw [toList_listPlace, hstart, List.drop_left, List.takeWhile_append_of_pos]
    · simp
    · intro c hc
      simpa using ne_bracket_of_mem_digits hc
  unfold placeIndex?
  simp only [hbegins, hdigits, notNumeral_toDigits, if_true, Bool.false_eq_true, if_false,
    Option.some.injEq]
  exact decimalNat_toDigits index

/-- Places in a list are as distinct as their indices. -/
theorem listPlace_injective (list field : String) : Function.Injective (listPlace list field) := by
  intro i j h
  have hread := placeIndex?_listPlace list field i
  rw [h, placeIndex?_listPlace] at hread
  exact (Option.some.inj hread).symm

theorem bracket_mem_listPlace (list field : String) (index : Nat) :
    '[' ∈ (listPlace list field index).toList := by
  rw [toList_listPlace]
  exact List.mem_append_left _ (List.mem_append_right _ List.mem_cons_self)

/-- A place in a list is no place of a field by itself. -/
theorem listPlace_ne {list field s : String} (hs : '[' ∉ s.toList) (index : Nat) :
    listPlace list field index ≠ s := by
  rintro rfl
  exact hs (bracket_mem_listPlace list field index)

/-- A place in a list is none of the fields that hold a single id. -/
theorem listPlace_ne_fields (list field : String) (index : Nat) :
    listPlace list field index ≠ "nextNodeId" ∧ listPlace list field index ≠ "elseNodeId" ∧
      listPlace list field index ≠ "loopNodeId" :=
  ⟨listPlace_ne (by decide) index, listPlace_ne (by decide) index, listPlace_ne (by decide) index⟩

/-! ## References of a node -/

theorem filled_eq_some_iff {id : Option String} {target : String} :
    filled id = some target ↔ id = some target ∧ target ≠ "" := by
  cases id with
  | none => simp [filled]
  | some s =>
    simp only [filled, Option.some.injEq]
    split
    · rename_i hempty
      subst hempty
      simp only [reduceCtorEq, false_iff, not_and, not_not]
      exact Eq.symm
    · rename_i hfull
      simp only [Option.some.injEq, iff_self_and]
      rintro rfl
      exact hfull

theorem mem_ofField_iff {place : String} {id : Option String} {r : Reference} :
    r ∈ Reference.ofField place id ↔ filled id = some r.target ∧ r.place = place := by
  obtain ⟨rplace, rtarget⟩ := r
  unfold Reference.ofField
  cases filled id with
  | none => simp
  | some target => simp [and_comm, eq_comm]

/-- The references of a list stem from its items, each from the item at the index of its place. -/
theorem mem_listReferences_iff {list field : String} {r : Reference} {ids : List (Option String)} :
    ∀ {start : Nat}, r ∈ listReferences list field start ids ↔
      ∃ i id, ids[i]? = some id ∧ filled id = some r.target ∧
        r.place = listPlace list field (start + i) := by
  induction ids with
  | nil => simp [listReferences]
  | cons first rest ih =>
    intro start
    rw [listReferences, List.mem_append, mem_ofField_iff, ih]
    constructor
    · rintro (⟨htarget, hplace⟩ | ⟨i, id, hid, htarget, hplace⟩)
      · exact ⟨0, first, rfl, htarget, hplace⟩
      · exact ⟨i + 1, id, hid, htarget, by rw [hplace]; congr 1; omega⟩
    · rintro ⟨i, id, hid, htarget, hplace⟩
      cases i with
      | zero =>
        cases hid
        exact .inl ⟨htarget, hplace⟩
      | succ i => exact .inr ⟨i, id, hid, htarget, by rw [hplace]; congr 1; omega⟩

theorem nodup_places_ofField (place : String) (id : Option String) :
    ((Reference.ofField place id).map Reference.place).Nodup := by
  unfold Reference.ofField
  cases filled id with
  | none => exact List.nodup_nil
  | some target => exact List.nodup_singleton place

/-- No two references of a list have the same place. -/
theorem nodup_places_listReferences (list field : String) (ids : List (Option String)) :
    ∀ start, ((listReferences list field start ids).map Reference.place).Nodup := by
  induction ids with
  | nil => exact fun _ => List.nodup_nil
  | cons first rest ih =>
    intro start
    rw [listReferences, List.map_append, List.nodup_append]
    refine ⟨nodup_places_ofField _ _, ih (start + 1), ?_⟩
    -- The rest has greater indices, and the place tells the index.
    rintro place hfirst _ hrest rfl
    obtain ⟨r, hr, rfl⟩ := List.mem_map.1 hfirst
    obtain ⟨r', hr', hsame⟩ := List.mem_map.1 hrest
    obtain ⟨i, -, -, -, hplace⟩ := mem_listReferences_iff.1 hr'
    rw [hplace, (mem_ofField_iff.1 hr).2] at hsame
    have hindex := listPlace_injective list field hsame
    omega

namespace Node

/-- Where a reference of a node stems from, and the words for it: a condition or a path of the node,
by its index, or one of the fields that hold a single id. -/
inductive Stems (n : Node) : Reference → Except Defect String → Prop
  | condition {conditions : List Condition} {elseNode next : Option String} {index : Nat}
      {c : Condition} {target : String} :
      n.behaviour = .known (.condition conditions elseNode) next →
      conditions[index]? = some c → c.thenNode = some target → target ≠ "" →
      c.value.hasLongInteger = false →
      Stems n ⟨listPlace "conditions" "thenNodeId" index, target⟩ (.ok c.shown)
  /-- The value of the condition cannot be written. -/
  | unwritable {conditions : List Condition} {elseNode next : Option String} {index : Nat}
      {c : Condition} {target : String} :
      n.behaviour = .known (.condition conditions elseNode) next →
      conditions[index]? = some c → c.thenNode = some target → target ≠ "" →
      c.value.hasLongInteger = true →
      Stems n ⟨listPlace "conditions" "thenNodeId" index, target⟩ (.error .longInteger)
  | path {paths : List (Option String)} {next : Option String} {index : Nat} {target : String} :
      n.behaviour = .known (.parallel paths) next → paths[index]? = some (some target) →
      target ≠ "" →
      Stems n ⟨listPlace "paths" "nodeId" index, target⟩
        (.ok ("path " ++ digitsText (index + 1)))
  | otherwise {conditions : List Condition} {next : Option String} {target : String} :
      n.behaviour = .known (.condition conditions (some target)) next → target ≠ "" →
      Stems n ⟨"elseNodeId", target⟩ (.ok "else")
  | body {arrayField itemVariable next : Option String} {maxIterations : Option Int}
      {target : String} :
      n.behaviour = .known (.loop arrayField itemVariable (some target) maxIterations) next →
      target ≠ "" → Stems n ⟨"loopNodeId", target⟩ (.ok "each item")
  | onward {target : String} :
      n.next = some target → target ≠ "" → Stems n ⟨"nextNodeId", target⟩ (.ok "next")

variable {n : Node} {r : Reference}

/-- What the task of a node refers to stems from the task. -/
theorem exists_stems_of_task {task : Task} {next : Option String}
    (hbehaviour : n.behaviour = .known task next) (hr : r ∈ task.references) :
    ∃ words, n.Stems r words := by
  obtain ⟨place, target⟩ := r
  cases task with
  | condition conditions elseNode =>
    rcases List.mem_append.1 hr with hr | hr
    · obtain ⟨i, id, hid, hfilled, rfl⟩ := mem_listReferences_iff.1 hr
      rw [List.getElem?_map, Option.map_eq_some_iff] at hid
      obtain ⟨c, hc, rfl⟩ := hid
      obtain ⟨hthen, hne⟩ := filled_eq_some_iff.1 hfilled
      rw [Nat.zero_add]
      cases hlong : c.value.hasLongInteger with
      | false => exact ⟨_, .condition hbehaviour hc hthen hne hlong⟩
      | true => exact ⟨_, .unwritable hbehaviour hc hthen hne hlong⟩
    · obtain ⟨hfilled, rfl⟩ := mem_ofField_iff.1 hr
      obtain ⟨rfl, hne⟩ := filled_eq_some_iff.1 hfilled
      exact ⟨_, .otherwise hbehaviour hne⟩
  | loop arrayField itemVariable loopNode maxIterations =>
    obtain ⟨hfilled, rfl⟩ := mem_ofField_iff.1 hr
    obtain ⟨rfl, hne⟩ := filled_eq_some_iff.1 hfilled
    exact ⟨_, .body hbehaviour hne⟩
  | parallel paths =>
    obtain ⟨i, id, hid, hfilled, rfl⟩ := mem_listReferences_iff.1 hr
    obtain ⟨rfl, hne⟩ := filled_eq_some_iff.1 hfilled
    rw [Nat.zero_add]
    exact ⟨_, .path hbehaviour hid hne⟩
  | _ => cases hr

theorem mem_references_of_task {task : Task} {next : Option String}
    (hbehaviour : n.behaviour = .known task next) (hr : r ∈ task.references) :
    r ∈ n.references := by
  unfold references
  rw [hbehaviour]
  exact List.mem_append_left _ hr

/-- What stems from a node is one of its references. -/
theorem Stems.mem_references {words : Except Defect String} (h : n.Stems r words) :
    r ∈ n.references := by
  have hcondition : ∀ {conditions : List Condition} {elseNode next : Option String} {i : Nat}
      {c : Condition} {target : String},
      n.behaviour = .known (.condition conditions elseNode) next → conditions[i]? = some c →
      c.thenNode = some target → target ≠ "" →
      ⟨listPlace "conditions" "thenNodeId" i, target⟩ ∈ n.references := by
    intro conditions elseNode next i c target hbehaviour hc hthen hne
    refine mem_references_of_task hbehaviour (List.mem_append_left _ ?_)
    refine mem_listReferences_iff.2 ⟨i, c.thenNode, ?_, ?_, by rw [Nat.zero_add]⟩
    · rw [List.getElem?_map, hc]
      rfl
    · exact filled_eq_some_iff.2 ⟨hthen, hne⟩
  cases h with
  | condition hbehaviour hc hthen hne _ => exact hcondition hbehaviour hc hthen hne
  | unwritable hbehaviour hc hthen hne _ => exact hcondition hbehaviour hc hthen hne
  | path hbehaviour hpath hne =>
    refine mem_references_of_task hbehaviour ?_
    exact mem_listReferences_iff.2
      ⟨_, _, hpath, filled_eq_some_iff.2 ⟨rfl, hne⟩, by rw [Nat.zero_add]⟩
  | otherwise hbehaviour hne =>
    refine mem_references_of_task hbehaviour (List.mem_append_right _ ?_)
    exact mem_ofField_iff.2 ⟨filled_eq_some_iff.2 ⟨rfl, hne⟩, rfl⟩
  | body hbehaviour hne =>
    refine mem_references_of_task hbehaviour ?_
    exact mem_ofField_iff.2 ⟨filled_eq_some_iff.2 ⟨rfl, hne⟩, rfl⟩
  | onward hnext hne =>
    refine List.mem_append_right _ ?_
    exact mem_ofField_iff.2 ⟨filled_eq_some_iff.2 ⟨hnext, hne⟩, rfl⟩

/-- The references of a node are those that stem from somewhere. -/
theorem mem_references_iff_stems : r ∈ n.references ↔ ∃ words, n.Stems r words := by
  constructor
  · intro hr
    rcases List.mem_append.1 hr with hr | hr
    · cases hbehaviour : n.behaviour with
      | known task next =>
        rw [hbehaviour] at hr
        exact exists_stems_of_task hbehaviour hr
      | unknown type config =>
        rw [hbehaviour] at hr
        cases hr
    · obtain ⟨place, target⟩ := r
      obtain ⟨hfilled, rfl⟩ := mem_ofField_iff.1 hr
      obtain ⟨hnext, hne⟩ := filled_eq_some_iff.1 hfilled
      exact ⟨_, .onward hnext hne⟩
  · rintro ⟨words, hstems⟩
    exact hstems.mem_references

/-- No task refers to anything at the place of the node that runs next. -/
theorem next_not_mem_places (task : Task) : "nextNodeId" ∉ task.references.map Reference.place := by
  intro hmem
  obtain ⟨r, hr, hplace⟩ := List.mem_map.1 hmem
  cases task with
  | condition conditions elseNode =>
    rcases List.mem_append.1 hr with hr | hr
    · obtain ⟨i, -, -, -, hlist⟩ := mem_listReferences_iff.1 hr
      exact listPlace_ne (by decide) _ (hlist ▸ hplace)
    · rw [(mem_ofField_iff.1 hr).2] at hplace
      exact absurd hplace (by decide)
  | loop arrayField itemVariable loopNode maxIterations =>
    rw [(mem_ofField_iff.1 hr).2] at hplace
    exact absurd hplace (by decide)
  | parallel paths =>
    obtain ⟨i, -, -, -, hlist⟩ := mem_listReferences_iff.1 hr
    exact listPlace_ne (by decide) _ (hlist ▸ hplace)
  | _ => cases hr

theorem nodup_places_of_task (task : Task) : (task.references.map Reference.place).Nodup := by
  cases task with
  | condition conditions elseNode =>
    rw [Task.references, List.map_append, List.nodup_append]
    refine ⟨nodup_places_listReferences _ _ _ _, nodup_places_ofField _ _, ?_⟩
    -- Only the places of conditions have brackets.
    rintro place hcondition _ helse rfl
    obtain ⟨r, hr, rfl⟩ := List.mem_map.1 hcondition
    obtain ⟨r', hr', hsame⟩ := List.mem_map.1 helse
    obtain ⟨i, -, -, -, hlist⟩ := mem_listReferences_iff.1 hr
    rw [(mem_ofField_iff.1 hr').2, hlist] at hsame
    exact listPlace_ne (by decide) _ hsame.symm
  | loop arrayField itemVariable loopNode maxIterations => exact nodup_places_ofField _ _
  | parallel paths => exact nodup_places_listReferences _ _ _ _
  | _ => exact List.nodup_nil

/-- The places of the references of a node are distinct. -/
theorem nodup_places (n : Node) : (n.references.map Reference.place).Nodup := by
  unfold references
  rw [List.map_append, List.nodup_append]
  refine ⟨?_, nodup_places_ofField _ _, ?_⟩
  · cases n.behaviour with
    | known task next => exact nodup_places_of_task task
    | unknown type config => exact List.nodup_nil
  · rintro place hmem _ hlast rfl
    obtain ⟨r, hr, rfl⟩ := List.mem_map.1 hlast
    rw [(mem_ofField_iff.1 hr).2] at hmem
    cases hbehaviour : n.behaviour with
    | known task next =>
      rw [hbehaviour] at hmem
      exact next_not_mem_places task hmem
    | unknown type config =>
      rw [hbehaviour] at hmem
      cases hmem

/-! ## Words -/

theorem wordsAt_listPlace_paths (n : Node) (field : String) (index : Nat) :
    n.wordsAt (listPlace "paths" field index) = .ok ("path " ++ digitsText (index + 1)) := by
  have hstarts : "paths[".toList.isPrefixOf (listPlace "paths" field index).toList = true := by
    rw [toList_listPlace]
    rfl
  have hread : bracketNumber 6 (listPlace "paths" field index) = .ok index :=
    bracketNumber_listPlace (by decide) field index
  obtain ⟨hnext, helse, hloop⟩ := listPlace_ne_fields "paths" field index
  unfold wordsAt
  simp only [if_neg hnext, if_neg helse, if_neg hloop, hstarts, hread, if_true]
  rfl

/-- The words for a condition are found by its index. -/
theorem wordsAt_listPlace_conditions {conditions : List Condition} {elseNode next : Option String}
    (hbehaviour : n.behaviour = .known (.condition conditions elseNode) next) (field : String)
    {index : Nat} {c : Condition} (hc : conditions[index]? = some c) :
    n.wordsAt (listPlace "conditions" field index) = c.described := by
  have hpaths : "paths[".toList.isPrefixOf (listPlace "conditions" field index).toList = false := by
    rw [toList_listPlace]
    rfl
  have hstarts : "conditions[".toList.isPrefixOf (listPlace "conditions" field index).toList =
      true := by
    rw [toList_listPlace]
    rfl
  have hread : bracketNumber 11 (listPlace "conditions" field index) = .ok index :=
    bracketNumber_listPlace (by decide) field index
  have hat : conditionAt conditions index = .ok c := by rw [conditionAt, hc]
  obtain ⟨hnext, helse, hloop⟩ := listPlace_ne_fields "conditions" field index
  unfold wordsAt
  simp only [if_neg hnext, if_neg helse, if_neg hloop, hpaths, hstarts, hbehaviour, hread,
    Bool.false_eq_true, if_false]
  simp only [bind, Except.bind, hat]

/-- The words for a reference are found by its place. -/
theorem Stems.wordsAt_eq {words : Except Defect String} (h : n.Stems r words) :
    n.wordsAt r.place = words := by
  cases h with
  | condition hbehaviour hc _ _ hlong =>
    rw [wordsAt_listPlace_conditions hbehaviour _ hc, Condition.described, hlong]
    rfl
  | unwritable hbehaviour hc _ _ hlong =>
    rw [wordsAt_listPlace_conditions hbehaviour _ hc, Condition.described, hlong]
    rfl
  | path _ _ _ => exact n.wordsAt_listPlace_paths _ _
  | otherwise _ _ => rfl
  | body _ _ => rfl
  | onward _ _ => rfl

theorem referenceLabel_listPlace_paths (n : Node) (field : String) (index : Nat) :
    n.referenceLabel (listPlace "paths" field index) = "path " ++ digitsText (index + 1) := by
  obtain ⟨hnext, helse, hloop⟩ := listPlace_ne_fields "paths" field index
  unfold referenceLabel
  simp only [if_neg hnext, if_neg helse, if_neg hloop, placeIndex?_listPlace]

theorem referenceLabel_listPlace_conditions {conditions : List Condition}
    {elseNode next : Option String}
    (hbehaviour : n.behaviour = .known (.condition conditions elseNode) next) (field : String)
    {index : Nat} {c : Condition} (hc : conditions[index]? = some c) :
    n.referenceLabel (listPlace "conditions" field index) = c.shown := by
  obtain ⟨hnext, helse, hloop⟩ := listPlace_ne_fields "conditions" field index
  have hstarts : ("paths" ++ "[").toList.isPrefixOf (listPlace "conditions" field index).toList =
      false := by
    rw [toList_listPlace]
    rfl
  have hpaths : placeIndex? "paths" (listPlace "conditions" field index) = none := by
    rw [placeIndex?, hstarts]
    rfl
  unfold referenceLabel
  simp only [if_neg hnext, if_neg helse, if_neg hloop, hpaths, placeIndex?_listPlace, hbehaviour,
    Option.bind_some, hc]

/-- Words that are found are the ones that are shown. -/
theorem Stems.referenceLabel_eq {s : String} (h : n.Stems r (.ok s)) :
    n.referenceLabel r.place = s := by
  cases h with
  | condition hbehaviour hc _ _ _ => exact referenceLabel_listPlace_conditions hbehaviour _ hc
  | path _ _ _ => exact n.referenceLabel_listPlace_paths _ _
  | otherwise _ _ => rfl
  | body _ _ => rfl
  | onward _ _ => rfl

/-- **References are read back as they were written.** The references of a node are those that stem
from its conditions, its paths and its other fields that hold an id, each once. The words for each
describe what it stems from: the condition or the path at the index of its place, which is the one
that holds its target. They are found and shown, unless the value of the condition cannot be
written. -/
theorem references_read_back (n : Node) :
    (n.references.map Reference.place).Nodup ∧
      (∀ r, r ∈ n.references ↔ ∃ words, n.Stems r words) ∧
      ∀ r words, n.Stems r words →
        n.wordsAt r.place = words ∧ ∀ s, words = .ok s → n.referenceLabel r.place = s := by
  refine ⟨n.nodup_places, fun r => mem_references_iff_stems, fun r words h => ⟨h.wordsAt_eq, ?_⟩⟩
  rintro s rfl
  exact h.referenceLabel_eq

/-- A node with three conditions, of which the second leads nowhere. -/
def sorter (largest : Int) : Node :=
  ⟨"sort", none, .known (.condition
    [⟨some "size", some .lessThan, .int 3, some "small"⟩, ⟨some "size", none, .null, none⟩,
      ⟨some "size", some .lessThan, .int largest, some "large"⟩] (some "huge")) none⟩

/-- The words for the second reference describe the third condition. -/
theorem references_sorter :
    (sorter 9).references.map Reference.place =
        ["conditions[0].thenNodeId", "conditions[2].thenNodeId", "elseNodeId"] ∧
      ⟨"conditions[2].thenNodeId", "large"⟩ ∈ (sorter 9).references ∧
      (sorter 9).wordsAt "conditions[2].thenNodeId" = .ok "if size lessThan 9" := by
  obtain ⟨-, hmem, hwords⟩ := references_read_back (sorter 9)
  have hshown : Condition.shown ⟨some "size", some .lessThan, .int 9, some "large"⟩ =
      "if size lessThan 9" := by decide +kernel
  have htarget : "large" ≠ "" := by decide
  have hstems : (sorter 9).Stems ⟨"conditions[2].thenNodeId", "large"⟩
      (.ok "if size lessThan 9") := by
    rw [← hshown]
    change (sorter 9).Stems ⟨listPlace "conditions" "thenNodeId" 2, "large"⟩ _
    refine .condition rfl ?_ ?_ htarget ?_ <;> rfl
  exact ⟨by decide +kernel, (hmem _).2 ⟨_, hstems⟩, (hwords _ _ hstems).1⟩

/-- The value of the third condition has one digit more than are written, and there are no words for
the reference. -/
theorem references_sorter_long :
    ⟨"conditions[2].thenNodeId", "large"⟩ ∈
        (sorter ((10 ^ maxNumeralDigits : Nat) : Int)).references ∧
      (sorter ((10 ^ maxNumeralDigits : Nat) : Int)).wordsAt "conditions[2].thenNodeId" =
        .error .longInteger := by
  have htarget : "large" ≠ "" := by decide
  have hstems : ∀ largest : Int, (Value.int largest).hasLongInteger = true →
      (sorter largest).Stems ⟨"conditions[2].thenNodeId", "large"⟩ (.error .longInteger) := by
    intro largest hlong
    change (sorter largest).Stems ⟨listPlace "conditions" "thenNodeId" 2, "large"⟩ _
    exact .unwritable (c := ⟨some "size", some .lessThan, .int largest, some "large"⟩)
      rfl rfl rfl htarget hlong
  have hthird := hstems _ Value.hasLongInteger_pow
  exact ⟨mem_references_iff_stems.2 ⟨_, hthird⟩, hthird.wordsAt_eq⟩

end Node

end Workgraph
