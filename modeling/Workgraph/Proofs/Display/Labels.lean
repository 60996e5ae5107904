import Workgraph.Display.Outline
import Workgraph.Proofs.Display.Tags
import Workgraph.Proofs.Graph.Reaching
/-!
# Tags of shown graphs

The pieces of which layers and outlines are joined. In layers, and in all labels of outlines but one
kind, every tag is one that the renderer has put there. The exception is the label of a condition: its
field and its value are escaped one by one, so a field that leaves a style open makes a tag together
with a value whose first bracket closes it (`Graph.tags_of_shown_graph`).
-/

namespace Workgraph

open Markup

theorem isPlain_digitsText (n : Nat) : IsPlain (digitsText n) := by
  intro c hc
  rw [digitsText, String.toList_ofList] at hc
  have hdigit : c.isDigit = true := Nat.isDigit_of_mem_toDigits (by norm_num) (by norm_num) hc
  refine ⟨?_, ?_⟩
  · rw [Bool.eq_false_iff]
    intro hbracket
    simp only [isBracket, Bool.or_eq_true, decide_eq_true_eq] at hbracket
    rcases hbracket with rfl | rfl <;> exact absurd hdigit (by decide)
  · rintro rfl
    exact absurd hdigit (by decide)

theorem isWords_digitsText (n : Nat) : IsWords (digitsText n) := by
  refine (isPlain_digitsText n).isWords fun hempty => ?_
  rw [digitsText, String.ofList_eq_empty_iff] at hempty
  exact Nat.toDigits_ne_nil hempty

/-! ## Nodes -/

namespace Node

/-- The pieces of a node as it is shown. -/
def parts (marks : Marks) (n : Node) : List Part :=
  let label : List Part := [.words (n.sign.1 ++ " "), .shown n.label]
  if marks.failed = some n.id then inStyle "red bold" (label ++ [.words " ✗"])
  else
    match marks.visits with
    | none => inStyle n.sign.2 label
    | some ids =>
      if ids.count n.id = 0 then inStyle "dim" label
      else if ids.count n.id = 1 then inStyle n.sign.2 (label ++ [.words " ✓"])
      else inStyle n.sign.2 (label ++ [.words " ✓ x", .words (digitsText (ids.count n.id))])

theorem writes_parts (marks : Marks) (n : Node) : Writes (n.parts marks) (n.shownWith marks) := by
  have hlabel : ∀ sign, Writes [.words (sign ++ " "), .shown n.label]
      (sign ++ " " ++ escape n.label) := fun sign => (writes_words _).append (writes_shown _)
  unfold parts shownWith
  -- The failed node comes first, then the number of visits decides.
  obtain ⟨sign, colour⟩ := n.sign
  simp only
  split
  · exact ((hlabel sign).append (writes_words _)).styled _
  · cases marks.visits with
    | none => exact (hlabel sign).styled _
    | some ids =>
      simp only
      split
      · exact (hlabel sign).styled _
      · split
        · exact ((hlabel sign).append (writes_words _)).styled _
        · exact (((hlabel sign).append (writes_words _)).append (writes_words _)).styled _

theorem isWords_sign (n : Node) : IsWords (n.sign.1 ++ " ") ∧ IsStyle n.sign.2 := by
  unfold sign
  split
  · decide
  · split <;> decide

/-- Whatever its marks, only words stand behind the label of a node. -/
theorem isGuarded_parts (marks : Marks) (n : Node) : IsGuarded (n.parts marks) := by
  obtain ⟨hsign, hcolour⟩ := n.isWords_sign
  have hclose : IsStyle "/" := by decide
  unfold parts
  simp only
  split
  · exact ⟨by decide, hsign, ⟨by decide, trivial⟩, by decide, hclose, trivial⟩
  · cases marks.visits with
    | none => exact ⟨hcolour, hsign, trivial, hclose, trivial⟩
    | some ids =>
      simp only
      split
      · exact ⟨by decide, hsign, trivial, hclose, trivial⟩
      · split
        · exact ⟨hcolour, hsign, ⟨by decide, trivial⟩, by decide, hclose, trivial⟩
        · have hcount := isPlain_digitsText (ids.count n.id)
          exact ⟨hcolour, hsign, ⟨by decide, hcount.noBracket, trivial⟩, by decide,
            isWords_digitsText _, hclose, trivial⟩

end Node

/-! ## Layers -/

namespace Graph

/-- The pieces of the lines of layers. -/
def lineParts : List (List (List Part)) → List (List Part)
  | [] => []
  | [layer] => [List.intercalate [.words layerGap] layer]
  | layer :: rest =>
    (List.intercalate [.words layerGap] layer ::
      (layerArrows layer.length).map fun s => [.words s]) ++ lineParts rest

/-- The pieces of a graph in layers. -/
def layerParts (g : Graph) (marks : Marks) : List Part :=
  List.intercalate [.words "\n"] (lineParts (g.layers.map fun layer =>
    (layer.filterMap g.find?).map (Node.parts ⟨marks.visits, none⟩)))

theorem chars_lineParts (marks : Marks) (layers : List (List Node)) :
    (lineParts (layers.map (·.map (Node.parts marks)))).map chars =
      (layerLines (layers.map (·.map (Node.shownWith marks)))).map String.toList := by
  have hline (layer : List Node) :
      chars (List.intercalate [.words layerGap] (layer.map (Node.parts marks))) =
        (layerGap.intercalate (layer.map (Node.shownWith marks))).toList := by
    refine (writes_intercalate layerGap ?_).symm
    rw [List.map_map, List.map_map]
    exact List.map_congr_left fun n _ => (n.writes_parts marks).symm
  induction layers with
  | nil => rfl
  | cons layer rest ih =>
    cases rest with
    | nil => exact congrArg (fun line => [line]) (hline layer)
    | cons next rest =>
      have harrows (count : Nat) : ((layerArrows count).map fun s => [Part.words s]).map chars =
          (layerArrows count).map String.toList := by
        rw [List.map_map]
        exact List.map_congr_left fun s _ => List.append_nil _
      simp only [List.map_cons, lineParts, layerLines, List.map_append, List.length_map] at ih ⊢
      rw [ih, hline, harrows]

theorem writes_layerParts (g : Graph) (marks : Marks) :
    Writes (g.layerParts marks) (g.layerText marks) := by
  refine writes_intercalate "\n" ?_
  have hlines := chars_lineParts ⟨marks.visits, none⟩ (g.layers.map (·.filterMap g.find?))
  rwa [List.map_map, List.map_map] at hlines

theorem isWords_layerArrows {count : Nat} {s : String} (h : s ∈ layerArrows count) : IsWords s := by
  obtain ⟨mark, hmark, rfl⟩ := List.mem_map.1 h
  have hmarks : ∀ m ∈ [layerGap, "  v  "], IsPlain m := by decide
  have hplain := hmarks mark hmark
  have hjoin : IsPlain (String.join (List.replicate count mark)) := by
    intro c hc
    rw [String.toList_join, List.mem_flatMap] at hc
    obtain ⟨t, ht, hc⟩ := hc
    exact hplain c (List.eq_of_mem_replicate ht ▸ hc)
  refine (IsPlain.append (by decide) hjoin).isWords fun hempty => ?_
  rw [String.append_eq_empty_iff] at hempty
  exact absurd hempty.1 (by decide)

theorem isGuarded_lineParts : ∀ {layers : List (List (List Part))},
    (∀ layer ∈ layers, ∀ ps ∈ layer, IsGuarded ps) → ∀ line ∈ lineParts layers, IsGuarded line
  | [], _ => fun line hline => absurd hline List.not_mem_nil
  | layer :: rest, h => by
    have hgap : IsGuarded [.words layerGap] := ⟨by decide, trivial⟩
    have hlayer := isGuarded_intercalate hgap (h layer List.mem_cons_self)
    intro line hline
    cases rest with
    | nil =>
      rw [List.mem_singleton.1 hline]
      exact hlayer
    | cons next rest =>
      rw [lineParts, List.mem_append, List.mem_cons, List.mem_map] at hline
      · rcases hline with (rfl | ⟨s, hs, rfl⟩) | hline
        · exact hlayer
        · exact ⟨isWords_layerArrows hs, trivial⟩
        · exact isGuarded_lineParts (fun l hl => h l (List.mem_cons_of_mem layer hl)) line hline
      · exact List.cons_ne_nil next rest

theorem allOwn_layerParts (g : Graph) (marks : Marks) : AllOwn (g.layerParts marks) := by
  have hbreak : IsGuarded [.words "\n"] := ⟨by decide, trivial⟩
  refine allOwn_of_isGuarded (isGuarded_intercalate hbreak (isGuarded_lineParts ?_))
  intro layer hlayer ps hps
  obtain ⟨ids, -, rfl⟩ := List.mem_map.1 hlayer
  obtain ⟨n, -, rfl⟩ := List.mem_map.1 hps
  exact n.isGuarded_parts _

end Graph

/-! ## References -/

namespace Condition

/-- The field that the label of a condition shows. -/
def fieldText (c : Condition) : String := c.field.getD (Value.shown .null)

/-- What the label of a condition shows of its value. -/
def valueText (c : Condition) : String := String.ofList (c.value.shown.toList.take maxValueLength)

/-- The name of the operator that the label of a condition shows. -/
def operatorText (c : Condition) : String := (c.operator.map Operator.name).getD "?"

/-- The pieces of a condition as it is shown. -/
def parts (c : Condition) : List Part :=
  [.words "if ", .shown c.fieldText, .words " ", .words c.operatorText, .words " ",
    .shown c.valueText]

/-- The pieces of the label of a condition. -/
def labelParts (c : Condition) : List Part :=
  inStyle "dim" (.words "(" :: (c.parts ++ [.words ")"]))

theorem writes_parts (c : Condition) : Writes c.parts c.shown := by
  have hfield := (writes_words "if ").append (writes_shown c.fieldText)
  have hoperator := (hfield.append (writes_words " ")).append (writes_words c.operatorText)
  exact (hoperator.append (writes_words " ")).append (writes_shown c.valueText)

theorem isPlain_operatorText (c : Condition) : IsPlain c.operatorText ∧ c.operatorText ≠ "" := by
  unfold operatorText
  cases c.operator with
  | none => decide
  | some o => cases o <;> decide

theorem isMarkup_labelParts (c : Condition) : IsMarkup c.labelParts := by
  have hoperator := c.isPlain_operatorText.1.isWords c.isPlain_operatorText.2
  have hwords : ∀ {s : String} (t : String) (rest : List Part),
      (Part.words s :: rest).head? ≠ some (.shown t) := by
    rintro s t rest ⟨⟩
  exact ⟨by decide, by decide, by decide, fun t => hwords t _, by decide, hoperator, by decide,
    fun t => hwords t _, by decide, by decide, trivial⟩

/-- **The tags in the label of a condition are those of the renderer unless the field leaves a style
open** and the first bracket of the value closes it. -/
theorem allOwn_labelParts (c : Condition) : AllOwn c.labelParts ↔
    ¬ (LeavesOpen c.fieldText ∧ firstBracket? c.valueText.toList = some ']') := by
  have hend : firstBracket? (chars [.words ")", .tag "/"]) = some '[' := by decide
  -- Behind the value there is a tag, so that it can leave no style open.
  have hvalue : (∃ before, LeftOpen [.shown c.valueText, .words ")", .tag "/"] before) ↔ False := by
    rw [exists_leftOpen_shown (by decide), hend, exists_leftOpen_words, exists_leftOpen_tag]
    simp [not_leftOpen_nil]
  -- The operator has no brackets: the first one behind the field is that of the value.
  have hfirst : firstBracket? (chars [.words " ", .words c.operatorText, .words " ",
      .shown c.valueText, .words ")", .tag "/"]) = some ']' ↔
      firstBracket? c.valueText.toList = some ']' := by
    have hspace : firstBracket? (Part.words " ").chars = none := by decide
    have hoperator : firstBracket? (Part.words c.operatorText).chars = none :=
      firstBracket?_eq_none.2 c.isPlain_operatorText.1.noBracket
    have hescape : firstBracket? (Part.shown c.valueText).chars = firstBracket? c.valueText.toList :=
      firstBracket?_escape _
    rw [chars_cons, chars_cons, chars_cons, chars_cons, firstBracket?_append, firstBracket?_append,
      firstBracket?_append, firstBracket?_append, hspace, hoperator, hescape, hend]
    cases firstBracket? c.valueText.toList <;> simp
  -- A space follows the field, and no style begins with it.
  have hbegins : ¬ BeginsStyle (chars [.words " ", .words c.operatorText, .words " ",
      .shown c.valueText, .words ")", .tag "/"]) := by
    rintro ⟨d, hd, hstyle⟩
    cases hd
    exact absurd hstyle (by decide)
  have hparts : c.labelParts = [.tag "dim", .words "(", .words "if ", .shown c.fieldText, .words " ",
    .words c.operatorText, .words " ", .shown c.valueText, .words ")", .tag "/"] := rfl
  rw [allOwn_iff c.isMarkup_labelParts, ← not_exists, hparts, exists_leftOpen_tag,
    exists_leftOpen_words, exists_leftOpen_words, exists_leftOpen_shown hbegins, hfirst,
    exists_leftOpen_words, exists_leftOpen_words, exists_leftOpen_words, hvalue, or_false]

end Condition

namespace Node

/-- The pieces of the words for a reference. -/
def referenceParts (n : Node) (place : String) : List Part :=
  let conditions := match n.behaviour with
    | .known (.condition conditions _) _ => conditions
    | _ => []
  if place = "nextNodeId" then [.words "next"]
  else if place = "elseNodeId" then [.words "else"]
  else if place = "loopNodeId" then [.words "each item"]
  else
    match placeIndex? "paths" place with
    | some i => [.words "path ", .words (digitsText (i + 1))]
    | none =>
      match (placeIndex? "conditions" place).bind fun i => conditions[i]? with
      | some c => c.parts
      | none => [.shown place]

theorem writes_referenceParts (n : Node) (place : String) :
    Writes (n.referenceParts place) (n.referenceLabel place) := by
  unfold referenceParts referenceLabel
  simp only
  split
  · exact writes_words _
  split
  · exact writes_words _
  split
  · exact writes_words _
  cases placeIndex? "paths" place with
  | some i => exact (writes_words "path ").append (writes_words _)
  | none =>
    simp only
    generalize (placeIndex? "conditions" place).bind _ = condition
    cases condition with
    | some c => exact c.writes_parts
    | none => exact writes_shown place

/-- The pieces of the label of a reference. -/
def referenceLabelParts (n : Node) (place : String) : List Part :=
  inStyle "dim" (.words "(" :: (n.referenceParts place ++ [.words ")"]))

/-- A reference has the label of a condition, or no more than one text that is shown. -/
theorem referenceLabelParts_cases (n : Node) (place : String) :
    IsGuarded (n.referenceLabelParts place) ∨
      ∃ c : Condition, n.referenceLabelParts place = c.labelParts := by
  have hclose : IsGuarded [.words ")", .tag "/"] := ⟨by decide, by decide, trivial⟩
  have hguarded {ps : List Part} (h : IsGuarded (ps ++ [.words ")", .tag "/"])) :
      IsGuarded (inStyle "dim" (.words "(" :: (ps ++ [.words ")"]))) := by
    have hassoc : ps ++ [.words ")", .tag "/"] = ps ++ [.words ")"] ++ [.tag "/"] :=
      (List.append_assoc ps [.words ")"] [.tag "/"]).symm
    rw [hassoc] at h
    exact ⟨by decide, by decide, h⟩
  unfold referenceLabelParts referenceParts
  simp only
  split
  · exact .inl (hguarded ⟨by decide, hclose⟩)
  split
  · exact .inl (hguarded ⟨by decide, hclose⟩)
  split
  · exact .inl (hguarded ⟨by decide, hclose⟩)
  cases placeIndex? "paths" place with
  | some i => exact .inl (hguarded ⟨by decide, isWords_digitsText _, hclose⟩)
  | none =>
    simp only
    generalize (placeIndex? "conditions" place).bind _ = condition
    cases condition with
    | some c => exact .inr ⟨c, rfl⟩
    | none => exact .inl (hguarded ⟨⟨by decide, trivial⟩, hclose⟩)

end Node

/-! ## Outlines -/

/-- A label occurs in an outline. -/
inductive Outline.Carries : Outline → String → Prop
  | here (label : String) (children : List Outline) : Carries (.branch label children) label
  | inside {label : String} {children : List Outline} {child : Outline} {other : String} :
      child ∈ children → Carries child other → Carries (.branch label children) other

theorem Outline.carries_branch {label other : String} {children : List Outline} :
    (Outline.branch label children).Carries other ↔
      other = label ∨ ∃ child ∈ children, child.Carries other := by
  constructor
  · rintro (_ | ⟨hchild, h⟩)
    · exact .inl rfl
    · exact .inr ⟨_, hchild, h⟩
  · rintro (rfl | ⟨child, hchild, h⟩)
    · exact .here other children
    · exact .inside hchild h

theorem Outline.carries_leaf {label other : String} :
    (Outline.leaf label).Carries other ↔ other = label := by
  rw [leaf, carries_branch]
  simp

namespace Graph

/-- The pieces of the labels of an outline. -/
inductive IsLabel (g : Graph) (marks : Marks) (title : String) : List Part → Prop
  | heading : IsLabel g marks title (inStyle "bold" [.shown title] ++
      [.words " (", .words (digitsText g.nodes.length), .words " nodes)"])
  | empty : IsLabel g marks title (inStyle "red" [.words "Error: workflow has no nodes"])
  | node {n : Node} : n ∈ g.nodes → IsLabel g marks title (n.parts marks)
  | deep : IsLabel g marks title (inStyle "dim" [.words "... (max depth reached)"])
  | cycle {n : Node} : n ∈ g.nodes →
      IsLabel g marks title (inStyle "dim" [.words "↩ ", .shown n.id, .words " (cycle)"])
  | missing {n : Node} {r : Reference} : n ∈ g.nodes → r ∈ n.references →
      IsLabel g marks title (inStyle "red" [.shown r.target, .words " (missing)"])
  | reference {n : Node} {r : Reference} : n ∈ g.nodes → r ∈ n.references →
      IsLabel g marks title (n.referenceLabelParts r.place)

section
variable {g : Graph} {marks : Marks} {title : String}

/-- The labels below a node. The induction is on the nodes that may still be on the way. -/
theorem exists_label_branchOf : ∀ {depth : Nat} {way : List String} {n : Node} {label : String},
    n ∈ g.nodes → (g.branchOf marks depth way n).Carries label →
      ∃ ps, IsLabel g marks title ps ∧ Writes ps label
  | 0, _, _, label, _, h => by
    rw [branchOf, Outline.carries_leaf] at h
    subst h
    exact ⟨_, .deep, (writes_words _).styled _⟩
  | depth + 1, way, n, label, hn, h => by
    rw [branchOf] at h
    -- A node that is on its own way is shown as a cycle, any other with its references.
    split at h
    · rw [Outline.carries_leaf] at h
      subst h
      have hid := (writes_words "↩ ").append (writes_shown n.id)
      exact ⟨_, .cycle hn, (hid.append (writes_words " (cycle)")).styled "dim"⟩
    · rw [Outline.carries_branch] at h
      rcases h with rfl | ⟨child, hchild, h⟩
      · exact ⟨_, .node hn, n.writes_parts marks⟩
      · obtain ⟨r, hr, rfl⟩ := List.mem_map.1 hchild
        cases hfind : g.find? r.target with
        | none =>
          simp only [hfind] at h
          rw [Outline.carries_leaf] at h
          subst h
          exact ⟨_, .missing hn hr, ((writes_shown _).append (writes_words _)).styled _⟩
        | some target =>
          simp only [hfind] at h
          rw [Outline.carries_branch] at h
          rcases h with rfl | ⟨child, hchild, h⟩
          · have hwords := (writes_words "(").append (n.writes_referenceParts r.place)
            exact ⟨_, .reference hn hr, (hwords.append (writes_words ")")).styled "dim"⟩
          -- Below a reference stands the branch of its target.
          · rw [List.mem_singleton.1 hchild] at h
            exact exists_label_branchOf (List.mem_of_find?_eq_some hfind) h

theorem exists_label {depth : Nat} {label : String}
    (h : (g.outline marks depth title).Carries label) :
    ∃ ps, IsLabel g marks title ps ∧ Writes ps label := by
  rw [outline, Outline.carries_branch] at h
  rcases h with rfl | ⟨child, hchild, h⟩
  · have hheading := ((writes_shown title).styled "bold").append (writes_words " (")
    exact ⟨_, .heading, (hheading.append (writes_words _)).append (writes_words _)⟩
  · split at hchild
    · rw [List.mem_singleton.1 hchild, Outline.carries_leaf] at h
      subst h
      exact ⟨_, .empty, (writes_words _).styled _⟩
    · obtain ⟨n, hn, rfl⟩ := List.mem_map.1 hchild
      exact exists_label_branchOf (roots_sublist.subset hn) h

/-- A label is guarded unless it is that of a condition. -/
theorem IsLabel.cases_guarded {ps : List Part} (h : IsLabel g marks title ps) :
    IsGuarded ps ∨ ∃ c : Condition, ps = c.labelParts := by
  have hclose : IsStyle "/" := by decide
  cases h with
  | heading =>
    exact .inl ⟨by decide, trivial, hclose, by decide, isWords_digitsText _, by decide, trivial⟩
  | empty => exact .inl ⟨by decide, by decide, hclose, trivial⟩
  | node hn => exact .inl (Node.isGuarded_parts marks _)
  | deep => exact .inl ⟨by decide, by decide, hclose, trivial⟩
  | cycle hn => exact .inl ⟨by decide, by decide, ⟨by decide, trivial⟩, by decide, hclose, trivial⟩
  | missing hn hr => exact .inl ⟨by decide, ⟨by decide, trivial⟩, by decide, hclose, trivial⟩
  | reference hn hr => exact Node.referenceLabelParts_cases _ _

end

/-- **The tags of a shown graph are those of the renderer.** This is so of its layers and of the labels
of its outline, except for the label of a condition whose field leaves a style open while the first
bracket of its value closes it. -/
theorem tags_of_shown_graph (g : Graph) (marks : Marks) (depth : Nat) (title : String) :
    (Writes (g.layerParts marks) (g.layerText marks) ∧ AllOwn (g.layerParts marks)) ∧
    ∀ label, (g.outline marks depth title).Carries label → ∃ ps, IsLabel g marks title ps ∧
      Writes ps label ∧ (AllOwn ps ↔ ¬ ∃ c : Condition, ps = c.labelParts ∧
        LeavesOpen c.fieldText ∧ firstBracket? c.valueText.toList = some ']') := by
  refine ⟨⟨g.writes_layerParts marks, g.allOwn_layerParts marks⟩, fun label hlabel => ?_⟩
  obtain ⟨ps, hps, hwrites⟩ := exists_label hlabel
  refine ⟨ps, hps, hwrites, ?_, fun hclosed => ?_⟩
  · rintro hown ⟨c, rfl, hopen⟩
    exact c.allOwn_labelParts.1 hown hopen
  · rcases hps.cases_guarded with hguarded | ⟨c, rfl⟩
    · exact allOwn_of_isGuarded hguarded
    · exact c.allOwn_labelParts.2 fun hopen => hclosed ⟨c, rfl, hopen⟩

/-- The references of a node at top level have their labels in the outline. -/
theorem carries_reference {g : Graph} {n : Node} (hn : n ∈ g.roots) {r : Reference}
    (hr : r ∈ n.references) (hfind : (g.find? r.target).isSome = true) (marks : Marks) (depth : Nat)
    (title : String) : (g.outline marks (depth + 1) title).Carries
      (styled "dim" ("(" ++ n.referenceLabel r.place ++ ")")) := by
  obtain ⟨target, htarget⟩ := Option.isSome_iff_exists.1 hfind
  have hne : ¬ g.nodes.isEmpty = true := by
    rw [List.isEmpty_iff]
    exact List.ne_nil_of_mem (roots_sublist.subset hn)
  rw [outline, if_neg hne]
  refine .inside (List.mem_map_of_mem hn) ?_
  rw [branchOf, if_neg (by simp)]
  refine .inside (List.mem_map_of_mem hr) ?_
  simp only [htarget]
  exact .here _ _

/-- A condition on a field with an opening bracket, for a value with a closing one. -/
def bracketed : Node where
  id := "a"
  name := none
  behaviour := .known (.condition [⟨some "[red", some .equals, .text "x]", some "b"⟩] none) none

/-- A graph with this condition, which leads to an output. -/
def bracketedGraph : Graph := ⟨[bracketed, ⟨"b", none, .known .output none⟩]⟩

/-- From the field to the value the label of the condition is read as a tag. -/
theorem bracketed_makes_tag :
    (bracketedGraph.outline .none standardDepth "Workflow").Carries "[dim](if [red equals x])[/]" ∧
      ActiveTag "[dim](if [red equals x])[/]".toList "[dim](if ".toList "red equals x".toList
        ")[/]".toList := by
  have hlabel : styled "dim" ("(" ++ bracketed.referenceLabel "conditions[0].thenNodeId" ++ ")") =
      "[dim](if [red equals x])[/]" := by decide +kernel
  have hreference : ⟨"conditions[0].thenNodeId", "b"⟩ ∈ bracketed.references := by decide +kernel
  have hroot : bracketed ∈ bracketedGraph.roots := List.mem_cons_self
  have hcarries := carries_reference hroot hreference (by decide +kernel) .none 49 "Workflow"
  rw [hlabel] at hcarries
  exact ⟨hcarries, by decide, by decide, by decide, by decide⟩

end Graph

end Workgraph
