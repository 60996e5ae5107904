import Workgraph.Proofs.Arithmetic.Failing
/-!
# Walks along paths

A path leads through a value segment by segment: by the fields of objects, and by positions of
lists. A lookup gives the value to which the path leads, and null where the path does not go on,
with one exception (`Value.lookup_answers`): digits are taken for a position before they are read,
and the lookup breaks down where a list meets digits that cannot be read.
-/

namespace Workgraph

/-! ## Positions -/

/-- A segment that spells a position: decimal digits, and not too many to be converted. -/
structure IsPosition (segment : String) (i : Nat) : Prop where
  ne_empty : segment ≠ ""
  decimal : ∀ c ∈ segment.toList, Text.isDecimal c = true
  short : segment.toList.length ≤ maxNumeralDigits
  value : Arithmetic.digitsNat segment.toList = i

/-- A segment of digits that spells no position: one of them has no decimal value, or there are too
many to be converted. -/
structure IsUnreadable (segment : String) : Prop where
  ne_empty : segment ≠ ""
  digits : ∀ c ∈ segment.toList, Text.isDigit c = true
  marked_or_long : (∃ c ∈ segment.toList, Text.isDecimal c = false) ∨
    maxNumeralDigits < segment.toList.length

theorem isDigit_of_isDecimal {c : Char} (h : Text.isDecimal c = true) : Text.isDigit c = true := by
  rw [Text.isDigit, h]
  rfl

theorem readInteger_position {segment : String} {i : Nat} (h : IsPosition segment i) :
    readInteger segment = .ok i := by
  have hread := Arithmetic.readInteger_digits h.decimal
    (mt String.toList_eq_nil_iff.1 h.ne_empty) h.short
  rwa [String.ofList_toList, h.value] at hread

/-- Decimal digits of which there are too many. -/
theorem readInteger_long {ds : List Char} (hds : ∀ c ∈ ds, Text.isDecimal c = true)
    (hlength : maxNumeralDigits < ds.length) :
    readInteger (String.ofList ds) = .error (.longNumeral ds.length) := by
  have hrun : ∀ c ∈ ds, Arithmetic.isNumberChar c = true :=
    fun c hc => Arithmetic.isNumberChar_of_isDigit (isDigit_of_isDecimal (hds c hc))
  have hdigits := Arithmetic.isDigit_plainDigits hds
  have hlength' : (plainDigits ds).length = ds.length := List.length_map _
  have hne : (plainDigits ds).isEmpty = false := by
    rw [List.isEmpty_eq_false_iff, ← List.length_pos_iff, hlength']
    omega
  rw [readInteger, String.toList_ofList, Arithmetic.dropUnderscores_run hrun]
  simp only [Arithmetic.readSign_run hrun, hne, List.all_eq_true.2 hdigits, hlength']
  rw [if_neg (by decide), if_pos hlength]

theorem readInteger_unreadable {segment : String} (h : IsUnreadable segment) :
    ∃ d, readInteger segment = .error d ∧ d.name = "ValueError" := by
  have hrun : ∀ c ∈ segment.toList, Arithmetic.isNumberChar c = true :=
    fun c hc => Arithmetic.isNumberChar_of_isDigit (h.digits c hc)
  rw [← @String.ofList_toList segment]
  by_cases hmark : ∃ c ∈ segment.toList, Text.isDecimal c = false
  · exact ⟨_, Arithmetic.readInteger_run_marked hrun hmark, rfl⟩
  · have hdecimal : ∀ c ∈ segment.toList, Text.isDecimal c = true := by simpa using hmark
    exact ⟨_, readInteger_long hdecimal (h.marked_or_long.resolve_left hmark), rfl⟩

/-- Digits spell a position or cannot be read. -/
theorem isPosition_or_isUnreadable {segment : String} (hne : segment ≠ "")
    (hdigits : ∀ c ∈ segment.toList, Text.isDigit c = true) :
    (∃ i, IsPosition segment i) ∨ IsUnreadable segment := by
  by_cases hread : (∃ c ∈ segment.toList, Text.isDecimal c = false) ∨
      maxNumeralDigits < segment.toList.length
  · exact .inr ⟨hne, hdigits, hread⟩
  · obtain ⟨hmark, hlong⟩ := not_or.1 hread
    exact .inl ⟨_, hne, by simpa using hmark, Nat.not_lt.1 hlong, rfl⟩

namespace Value

/-! ## One segment -/

/-- A segment leads from a value to a part of it. -/
inductive LeadsTo : Value → String → Value → Prop
  | field {fields : Entries Value} {segment : String} {w : Value}
      (found : fields.get? segment = some w) : LeadsTo (.object fields) segment w
  | item {items : List Value} {segment : String} {i : Nat} {w : Value}
      (position : IsPosition segment i) (found : items[i]? = some w) :
      LeadsTo (.list items) segment w

/-- A segment leads nowhere: the object has no such field, the segment does not consist of digits or
the list is not that long, or there are no parts. -/
inductive LeadsNowhere : Value → String → Prop
  | missing {fields : Entries Value} {segment : String} (missing : fields.get? segment = none) :
      LeadsNowhere (.object fields) segment
  | notDigits {items : List Value} {segment : String}
      (other : segment = "" ∨ ∃ c ∈ segment.toList, Text.isDigit c = false) :
      LeadsNowhere (.list items) segment
  | outOfRange {items : List Value} {segment : String} {i : Nat}
      (position : IsPosition segment i) (behind : items.length ≤ i) :
      LeadsNowhere (.list items) segment
  | scalar {v : Value} (not_object : ∀ fields, v ≠ .object fields)
      (not_list : ∀ items, v ≠ .list items) (segment : String) : LeadsNowhere v segment

/-- A list meets digits that cannot be read. -/
inductive Stops : Value → String → Prop
  | unreadable (items : List Value) {segment : String} (digits : IsUnreadable segment) :
      Stops (.list items) segment

theorem step_digits {items : List Value} {segment : String} (hne : segment ≠ "")
    (hdigits : ∀ c ∈ segment.toList, Text.isDigit c = true) :
    (list items).step segment =
      (readInteger segment).map fun i => (items[i.toNat]?).getD .null := by
  have hguard : (decide (segment ≠ "") && segment.toList.all Text.isDigit) = true := by
    rw [Bool.and_eq_true, List.all_eq_true]
    exact ⟨decide_eq_true hne, hdigits⟩
  rw [step, if_pos hguard]
  cases readInteger segment <;> rfl

theorem step_position {items : List Value} {segment : String} {i : Nat}
    (h : IsPosition segment i) : (list items).step segment = .ok ((items[i]?).getD .null) := by
  rw [step_digits h.ne_empty fun c hc => isDigit_of_isDecimal (h.decimal c hc),
    readInteger_position h]
  rfl

theorem LeadsTo.step_eq {v w : Value} {segment : String} (h : LeadsTo v segment w) :
    v.step segment = .ok w := by
  cases h with
  | field found => rw [step, found]; rfl
  | item position found => rw [step_position position, found]; rfl

theorem LeadsNowhere.step_eq {v : Value} {segment : String} (h : LeadsNowhere v segment) :
    v.step segment = .ok .null := by
  cases h with
  | missing missing => rw [step, missing]; rfl
  | notDigits other =>
    rw [step, if_neg]
    rw [Bool.and_eq_true, List.all_eq_true]
    rintro ⟨hne, hdigits⟩
    rcases other with rfl | ⟨c, hc, hdigit⟩
    · exact of_decide_eq_true hne rfl
    · rw [hdigits c hc] at hdigit
      cases hdigit
  | outOfRange position behind =>
    rw [step_position position, List.getElem?_eq_none behind]
    rfl
  | scalar not_object not_list segment =>
    cases v with
    | object fields => exact absurd rfl (not_object fields)
    | list items => exact absurd rfl (not_list items)
    | _ => rfl

theorem Stops.step_eq {v : Value} {segment : String} (h : Stops v segment) :
    ∃ d, v.step segment = .error d ∧ d.name = "ValueError" := by
  cases h with
  | unreadable items digits =>
    obtain ⟨d, hd, hname⟩ := readInteger_unreadable digits
    refine ⟨d, ?_, hname⟩
    rw [step_digits digits.ne_empty digits.digits, hd]
    rfl

/-- A segment leads to a part, or nowhere, or it cannot be read. -/
theorem leads_or_stops (v : Value) (segment : String) :
    (∃ w, LeadsTo v segment w) ∨ LeadsNowhere v segment ∨ Stops v segment := by
  cases v with
  | object fields =>
    cases hfound : Entries.get? fields segment with
    | none => exact .inr (.inl (.missing hfound))
    | some w => exact .inl ⟨w, .field hfound⟩
  | list items =>
    by_cases hother : segment = "" ∨ ∃ c ∈ segment.toList, Text.isDigit c = false
    · exact .inr (.inl (.notDigits hother))
    · -- What is taken for a position need not spell one.
      obtain ⟨hne, hdigits⟩ := not_or.1 hother
      rcases isPosition_or_isUnreadable hne (by simpa using hdigits) with ⟨i, hposition⟩ | hunread
      · cases hfound : items[i]? with
        | none => exact .inr (.inl (.outOfRange hposition (List.getElem?_eq_none_iff.1 hfound)))
        | some w => exact .inl ⟨w, .item hposition hfound⟩
      · exact .inr (.inr (.unreadable items hunread))
  | _ => exact .inr (.inl (.scalar (fun _ => Value.noConfusion) (fun _ => Value.noConfusion) _))

/-! ## Walks -/

/-- The segments lead from a value to another. -/
inductive Reaches : Value → List String → Value → Prop
  | here (v : Value) : Reaches v [] v
  | further {v w u : Value} {segment : String} {rest : List String}
      (first : LeadsTo v segment w) (more : Reaches w rest u) : Reaches v (segment :: rest) u

/-- One of the segments leads nowhere. -/
inductive Ends : Value → List String → Prop
  | here {v : Value} {segment : String} (nowhere : LeadsNowhere v segment) (rest : List String) :
      Ends v (segment :: rest)
  | further {v w : Value} {segment : String} {rest : List String}
      (first : LeadsTo v segment w) (more : Ends w rest) : Ends v (segment :: rest)

/-- One of the segments meets a list and cannot be read. -/
inductive BreaksDown : Value → List String → Prop
  | here {v : Value} {segment : String} (stops : Stops v segment) (rest : List String) :
      BreaksDown v (segment :: rest)
  | further {v w : Value} {segment : String} {rest : List String}
      (first : LeadsTo v segment w) (more : BreaksDown w rest) : BreaksDown v (segment :: rest)

/-- From null no segment leads on. -/
theorem follow_null (route : List String) : follow .null route = .ok .null := by
  cases route <;> rfl

theorem LeadsTo.follow_eq {v w : Value} {segment : String} (h : LeadsTo v segment w)
    (rest : List String) : v.follow (segment :: rest) = w.follow rest := by
  rw [follow, h.step_eq]
  -- The walk stops at null, and from there it would not get to anything else.
  cases w with
  | null => exact (follow_null rest).symm
  | _ => rfl

theorem Reaches.follow_eq {v w : Value} {route : List String} (h : Reaches v route w) :
    v.follow route = .ok w := by
  induction h with
  | here v => rfl
  | further first _ ih => rw [first.follow_eq, ih]

theorem Ends.follow_eq {v : Value} {route : List String} (h : Ends v route) :
    v.follow route = .ok .null := by
  induction h with
  | here nowhere rest => rw [follow, nowhere.step_eq]
  | further first _ ih => rw [first.follow_eq, ih]

theorem BreaksDown.follow_eq {v : Value} {route : List String} (h : BreaksDown v route) :
    ∃ d, v.follow route = .error d ∧ d.name = "ValueError" := by
  induction h with
  | here stops rest =>
    obtain ⟨d, hd, hname⟩ := stops.step_eq
    exact ⟨d, by rw [follow, hd], hname⟩
  | further first _ ih => rwa [first.follow_eq]

/-- **A walk reaches a value, or ends, or breaks down.** -/
theorem reaches_or_ends (v : Value) (route : List String) :
    (∃ w, Reaches v route w) ∨ Ends v route ∨ BreaksDown v route := by
  induction route generalizing v with
  | nil => exact .inl ⟨v, .here v⟩
  | cons segment rest ih =>
    rcases leads_or_stops v segment with ⟨w, hw⟩ | hnowhere | hstops
    · rcases ih w with ⟨u, hu⟩ | hends | hbreaks
      · exact .inl ⟨u, .further hw hu⟩
      · exact .inr (.inl (.further hw hends))
      · exact .inr (.inr (.further hw hbreaks))
    · exact .inr (.inl (.here hnowhere rest))
    · exact .inr (.inr (.here hstops rest))

theorem follow_eq_ok_iff {v w : Value} {route : List String} :
    v.follow route = .ok w ↔ Reaches v route w ∨ w = .null ∧ Ends v route := by
  constructor
  · intro h
    rcases reaches_or_ends v route with ⟨u, hu⟩ | hends | hbreaks
    · rw [hu.follow_eq] at h
      cases h
      exact .inl hu
    · rw [hends.follow_eq] at h
      cases h
      exact .inr ⟨rfl, hends⟩
    · obtain ⟨d, hd, -⟩ := hbreaks.follow_eq
      rw [hd] at h
      cases h
  · rintro (hreaches | ⟨rfl, hends⟩)
    · exact hreaches.follow_eq
    · exact hends.follow_eq

theorem follow_eq_error_iff {v : Value} {route : List String} :
    (∃ d, v.follow route = .error d) ↔ BreaksDown v route := by
  constructor
  · rintro ⟨d, hd⟩
    rcases reaches_or_ends v route with ⟨u, hu⟩ | hends | hbreaks
    · rw [hu.follow_eq] at hd
      cases hd
    · rw [hends.follow_eq] at hd
      cases hd
    · exact hbreaks
  · intro hbreaks
    obtain ⟨d, hd, -⟩ := hbreaks.follow_eq
    exact ⟨d, hd⟩

/-! ## Lookups -/

/-- The segments along which a path leads; the empty path has none. -/
def route (path : String) : List String := if path = "" then [] else segments path

theorem lookup_eq_follow (v : Value) (path : String) : v.lookup path = v.follow (route path) := by
  unfold lookup route
  split <;> rfl

/-- A path is its segments with points between them, and no segment has a point in it. The empty
path has no segments. -/
structure IsRoute (path : String) (segments : List String) : Prop where
  eq_nil_iff : segments = [] ↔ path = ""
  joined : ['.'].intercalate (segments.map String.toList) = path.toList
  no_point : ∀ segment ∈ segments, '.' ∉ segment.toList

theorem map_toList_route {path : String} (hne : path ≠ "") :
    (route path).map String.toList = path.toList.splitOn '.' := by
  rw [route, if_neg hne, segments_eq, List.map_map]
  simp

theorem isRoute_route (path : String) : IsRoute path (route path) := by
  rcases eq_or_ne path "" with rfl | hne
  · exact ⟨by decide, rfl, by rintro _ ⟨⟩⟩
  have hparts := map_toList_route hne
  constructor
  · refine ⟨fun hnil => ?_, fun h => absurd h hne⟩
    rw [hnil] at hparts
    exact absurd hparts.symm (List.splitOn_ne_nil _ _)
  · rw [hparts, List.intercalate_splitOn]
  · intro segment hsegment
    have hmem : segment.toList ∈ path.toList.splitOn '.' :=
      hparts ▸ List.mem_map_of_mem hsegment
    exact Text.not_mem_of_mem_splitOn hmem

/-- A path without points is its only segment. -/
theorem route_of_not_mem {path : String} (hne : path ≠ "") (hpoint : '.' ∉ path.toList) :
    route path = [path] := by
  rw [route, if_neg hne, segments_eq, List.splitOn_eq_singleton hpoint]
  exact congrArg (fun s => [s]) String.ofList_toList

/-- **A lookup follows the segments of the path.** It gives the value to which the segments of the
path lead, and null if one of them leads nowhere. It breaks down just where a list meets digits that
spell no position: one of them has no decimal value, or there are too many. -/
theorem lookup_answers (v : Value) (path : String) : IsRoute path (route path) ∧
    (∀ w, v.lookup path = .ok w ↔ Reaches v (route path) w ∨ w = .null ∧ Ends v (route path)) ∧
    ((∃ d, v.lookup path = .error d) ↔ BreaksDown v (route path)) ∧
    ∀ d, v.lookup path = .error d → d.name = "ValueError" := by
  rw [lookup_eq_follow]
  refine ⟨isRoute_route path, fun w => follow_eq_ok_iff, follow_eq_error_iff, fun d hd => ?_⟩
  obtain ⟨e, he, hname⟩ := (follow_eq_error_iff.1 ⟨d, hd⟩).follow_eq
  rw [hd] at he
  cases he
  exact hname

/-- A superscript is a digit, so a list takes it for a position, and it leads to no answer. -/
theorem superscript_breaks_lookup : ¬ ∃ w, (list [.int 1, .int 2, .int 3]).lookup "²" = .ok w := by
  rintro ⟨w, hw⟩
  have hunreadable : IsUnreadable "²" :=
    ⟨by decide, List.all_eq_true.1 (by decide), .inl ⟨'²', by decide, by decide⟩⟩
  have hbreaks : BreaksDown (list [.int 1, .int 2, .int 3]) ["²"] :=
    .here (.unreadable _ hunreadable) []
  obtain ⟨d, hd, -⟩ := hbreaks.follow_eq
  rw [lookup_eq_follow, route_of_not_mem (by decide) (by decide), hd] at hw
  cases hw

end Value

end Workgraph
