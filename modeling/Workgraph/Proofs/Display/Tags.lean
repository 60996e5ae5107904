import Workgraph.Proofs.Display.Escaping
/-!
# Tags of texts joined from pieces

A marked-up text is joined from tags, from words, and from texts that are shown as they are and so
are escaped. The pieces are safe one by one, but not always together: a tag that is none of the pieces
begins in a text that leaves a style open, and ends where a later piece has a closing bracket
(`Markup.allOwn_iff`). Where only words stand between a shown text and the next tag, every tag is one
of the pieces (`Markup.allOwn_of_isGuarded`).
-/

namespace Workgraph.Markup

/-- A tag in a text: a bracket with an even number of backslashes before it, and a style up to the
first closing bracket. -/
structure ActiveTag (cs before name after : List Char) : Prop where
  eq : cs = before ++ '[' :: (name ++ ']' :: after)
  even : slashes before % 2 = 0
  begins : BeginsStyle name
  noBracket : NoBracket name

/-- A piece of a marked-up text. -/
inductive Part where
  | tag (name : String)
  | words (s : String)
  /-- A text that is shown as it is. -/
  | shown (s : String)
deriving DecidableEq, Repr

/-- A piece as it is written. -/
def Part.chars : Part → List Char
  | .tag name => '[' :: (name.toList ++ [']'])
  | .words s => s.toList
  | .shown s => (escape s).toList

/-- The pieces, joined. -/
def chars (ps : List Part) : List Char := ps.flatMap Part.chars

/-- A tag that is one of the pieces. -/
def OwnTag (ps : List Part) (before name : List Char) : Prop :=
  ∃ front style rest, ps = front ++ .tag style :: rest ∧ style.toList = name ∧ before = chars front

/-- All tags of the joined text are pieces of it. -/
def AllOwn (ps : List Part) : Prop :=
  ∀ before name after, ActiveTag (chars ps) before name after → OwnTag ps before name

/-- A text that is shown opens a style, which the pieces behind it close. -/
def LeftOpen (ps : List Part) (before : List Char) : Prop :=
  ∃ front s rest w inner, ps = front ++ .shown s :: rest ∧ before = chars front ++ w ∧
    Opening s w inner (chars rest)

/-! ## Pieces that fit together -/

/-- A style for a tag. -/
def IsStyle (name : String) : Prop := BeginsStyle name.toList ∧ NoBracket name.toList

/-- Words have no backslash in them, and no opening bracket with a style behind it. -/
def IsWords (s : String) : Prop :=
  s.toList ≠ [] ∧ '\\' ∉ s.toList ∧ s.toList.getLast? ≠ some '[' ∧
    s.toList.IsChain fun c d => c = '[' → beginsStyle d = false

instance (name : String) : Decidable (IsStyle name) :=
  inferInstanceAs (Decidable (_ ∧ _))

instance (s : String) : Decidable (IsWords s) :=
  inferInstanceAs (Decidable (_ ∧ _ ∧ _ ∧ _))

/-- Pieces of which no two that are shown meet. -/
def IsMarkup : List Part → Prop
  | [] => True
  | .tag name :: rest => IsStyle name ∧ IsMarkup rest
  | .words s :: rest => IsWords s ∧ IsMarkup rest
  | .shown _ :: rest => (∀ s, rest.head? ≠ some (.shown s)) ∧ IsMarkup rest

/-- Words without a bracket, and then a tag. -/
def TagNext : List Part → Prop
  | .tag _ :: _ => True
  | .words s :: rest => NoBracket s.toList ∧ TagNext rest
  | _ => False

/-- Pieces of which each one that is shown is followed by words up to the next tag. -/
def IsGuarded : List Part → Prop
  | [] => True
  | .tag name :: rest => IsStyle name ∧ IsGuarded rest
  | .words s :: rest => IsWords s ∧ IsGuarded rest
  | .shown _ :: rest => TagNext rest ∧ IsGuarded rest

/-- Characters that are neither brackets nor backslashes. -/
def IsPlain (s : String) : Prop := ∀ c ∈ s.toList, isBracket c = false ∧ c ≠ '\\'

instance (s : String) : Decidable (IsPlain s) :=
  s.toList.decidableBAll _

theorem IsPlain.noBracket {s : String} (h : IsPlain s) : NoBracket s.toList :=
  fun c hc => (h c hc).1

theorem IsPlain.append {s t : String} (hs : IsPlain s) (ht : IsPlain t) : IsPlain (s ++ t) := by
  intro c hc
  rw [String.toList_append] at hc
  exact (List.mem_append.1 hc).elim (hs c) (ht c)

theorem IsPlain.isWords {s : String} (h : IsPlain s) (hne : s ≠ "") : IsWords s := by
  -- No character is an opening bracket, so that none has a style behind it.
  have hopening : ∀ c ∈ s.toList, c ≠ '[' := by
    rintro c hc rfl
    exact absurd (h.noBracket '[' hc) (by decide)
  refine ⟨by rwa [ne_eq, String.toList_eq_nil_iff], fun hmem => (h _ hmem).2 rfl, ?_, ?_⟩
  · exact fun hlast => hopening '[' (List.mem_of_getLast? hlast) rfl
  · refine (List.isChain_isInfix s.toList).imp fun c d hpair hc => ?_
    exact absurd hc (hopening c (hpair.subset List.mem_cons_self))

theorem chars_cons (p : Part) (ps : List Part) : chars (p :: ps) = p.chars ++ chars ps := rfl

theorem chars_append (ps qs : List Part) : chars (ps ++ qs) = chars ps ++ chars qs :=
  List.flatMap_append

/-! ## Tags of the pieces -/

variable {ps : List Part}

theorem OwnTag.cons {before name : List Char} (h : OwnTag ps before name) (p : Part) :
    OwnTag (p :: ps) (p.chars ++ before) name := by
  obtain ⟨front, style, rest, rfl, hname, rfl⟩ := h
  exact ⟨p :: front, style, rest, rfl, hname, rfl⟩

theorem LeftOpen.cons {before : List Char} (h : LeftOpen ps before) (p : Part) :
    LeftOpen (p :: ps) (p.chars ++ before) := by
  obtain ⟨front, s, rest, w, inner, rfl, rfl, hopening⟩ := h
  exact ⟨p :: front, s, rest, w, inner, rfl, (List.append_assoc _ _ _).symm, hopening⟩

theorem not_leftOpen_nil (before : List Char) : ¬ LeftOpen [] before := by
  rintro ⟨front, s, rest, w, inner, h, -⟩
  cases front <;> cases h

/-- It is the first piece that opens a style, or a later one. -/
theorem exists_leftOpen_cons {p : Part} : (∃ before, LeftOpen (p :: ps) before) ↔
    (∃ s w inner, p = .shown s ∧ Opening s w inner (chars ps)) ∨ ∃ before, LeftOpen ps before := by
  constructor
  · rintro ⟨before, front, s, rest, w, inner, h, -, hopening⟩
    cases front with
    | nil =>
      cases h
      exact .inl ⟨s, w, inner, rfl, hopening⟩
    | cons q front =>
      cases h
      exact .inr ⟨_, front, s, rest, w, inner, rfl, rfl, hopening⟩
  · rintro (⟨s, w, inner, rfl, hopening⟩ | ⟨before, h⟩)
    · exact ⟨_, [], s, ps, w, inner, rfl, rfl, hopening⟩
    · exact ⟨_, h.cons p⟩

/-- There is no tag in words, and none begins there. -/
theorem IsWords.not_begins {s : String} (h : IsWords s) {u v ds : List Char}
    (hs : s.toList = u ++ '[' :: v) : ¬ BeginsStyle (v ++ ds) := by
  obtain ⟨-, -, hlast, hchain⟩ := h
  rw [hs] at hlast hchain
  cases v with
  | nil =>
    rw [List.getLast?_append] at hlast
    exact absurd rfl hlast
  | cons c v =>
    intro hbegins
    obtain ⟨d, hd, hstyle⟩ := hbegins
    cases hd
    -- Within the words, the character behind the bracket begins no style.
    have hnot := (List.isChain_append.1 hchain).2.1
    rw [List.isChain_cons_cons] at hnot
    rw [hnot.1 rfl] at hstyle
    cases hstyle

/-- A shown text that comes next does not meet a backslash. -/
def Meets (cs : List Char) (ps : List Part) : Prop :=
  slashes cs = 0 ∨ ∀ s, ps.head? ≠ some (.shown s)

theorem IsMarkup.meets {p : Part} (h : IsMarkup (p :: ps)) (cs : List Char) :
    Meets (cs ++ p.chars) ps := by
  cases p with
  | tag name =>
    refine .inl ?_
    rw [Part.chars, ← List.cons_append, ← List.append_assoc]
    exact slashes_append_cons (by decide) _ []
  | words s =>
    obtain ⟨⟨hne, hslash, -⟩, -⟩ := h
    -- The last character of the words is no backslash.
    refine .inl ?_
    obtain ⟨front, c, hc⟩ := (List.eq_nil_or_concat s.toList).resolve_left hne
    have hmem : c ∈ s.toList := by
      rw [hc]
      simp
    rw [Part.chars, hc, List.concat_eq_append, ← List.append_assoc]
    exact slashes_append_cons (fun heq => hslash (heq ▸ hmem)) _ []
  | shown s => exact .inr h.1

theorem IsMarkup.tail {p : Part} (h : IsMarkup (p :: ps)) : IsMarkup ps := by
  cases p <;> exact h.2

/-- No backslash stands before a text that is shown. -/
theorem IsMarkup.slashes_eq_zero {s : String} {rest : List Part} : ∀ {front : List Part}
    {cs : List Char}, IsMarkup (front ++ .shown s :: rest) → Meets cs (front ++ .shown s :: rest) →
      slashes (cs ++ chars front) = 0
  | [], cs, _, hmeets => by
    rw [chars, List.flatMap_nil, List.append_nil]
    exact hmeets.resolve_right fun hne => hne s rfl
  | p :: front, cs, h, _ => by
    rw [chars_cons, ← List.append_assoc]
    exact slashes_eq_zero h.tail (h.meets cs)

/-- A character of joined texts stands in the second one or in the first one. -/
theorem append_eq_cases {xs ys u v : List Char} {d : Char} (h : xs ++ ys = u ++ d :: v) :
    (∃ u', u = xs ++ u' ∧ ys = u' ++ d :: v) ∨ ∃ v', xs = u ++ d :: v' ∧ v = v' ++ ys := by
  rcases List.append_eq_append_iff.1 h with ⟨w, rfl, hw⟩ | ⟨w, rfl, hw⟩
  · exact .inl ⟨w, rfl, hw⟩
  · cases w with
    | nil => exact .inl ⟨[], by simp, hw.symm⟩
    | cons e w =>
      cases hw
      exact .inr ⟨w, rfl, rfl⟩

theorem not_mem_of_noBracket {cs : List Char} (h : NoBracket cs) {b : Char}
    (hb : isBracket b = true) : b ∉ cs := by
  intro hmem
  rw [h b hmem] at hb
  cases hb

section
variable {u v name after : List Char} (hnone : NoBracket name)
include hnone

/-- A tag that begins in a tag is that tag. -/
theorem ownTag_of_tag {style : String} (hstyle : IsStyle style)
    (hu : (Part.tag style).chars = u ++ '[' :: v) (hv : name ++ ']' :: after = v ++ chars ps) :
    OwnTag (.tag style :: ps) u name := by
  cases u with
  | nil =>
    cases hu
    rw [List.append_assoc] at hv
    rcases eq_append_cases (not_mem_of_noBracket hnone rfl) hv with ⟨heq, -, -⟩ | ⟨w, heq, -⟩
    -- Both names end at the first closing bracket.
    · exact ⟨[], style, ps, rfl, heq, rfl⟩
    · refine absurd ?_ (not_mem_of_noBracket hstyle.2 (b := ']') rfl)
      rw [heq]
      exact List.mem_append_right name List.mem_cons_self
  -- The bracket would stand in the name of the style.
  | cons c u =>
    simp only [Part.chars, List.cons_append, List.cons.injEq] at hu
    have hmem : '[' ∈ style.toList ++ [']'] := by
      rw [hu.2]
      exact List.mem_append_right u List.mem_cons_self
    rcases List.mem_append.1 hmem with hmem | hmem
    · exact absurd hmem (not_mem_of_noBracket hstyle.2 rfl)
    · cases List.mem_singleton.1 hmem

variable (hname : BeginsStyle name)
include hname

/-- A tag that begins in a text that is shown ends behind it. -/
theorem leftOpen_of_shown {s : String} (heven : slashes u % 2 = 0)
    (hu : (Part.shown s).chars = u ++ '[' :: v) (hv : name ++ ']' :: after = v ++ chars ps) :
    LeftOpen (.shown s :: ps) u := by
  have hfirst : firstBracket? (v ++ chars ps) = some ']' := by
    rw [← hv]
    exact firstBracket?_eq_some.2 ⟨rfl, name, after, rfl, hnone⟩
  have hbegins : BeginsStyle (v ++ chars ps) := hv ▸ hname.append _
  rw [firstBracket?_append] at hfirst
  cases hbracket : firstBracket? v with
  | none =>
    rw [hbracket] at hfirst
    exact ⟨[], s, ps, u, v, rfl, rfl, hu, heven, firstBracket?_eq_none.1 hbracket, hbegins, hfirst⟩
  -- Otherwise the tag would stand in the escaped text alone, and that has none.
  | some b =>
    rw [hbracket] at hfirst
    cases hfirst
    have hne : v ≠ [] := by
      rintro rfl
      cases hbracket
    have hnot := readsAsStyle_of_escape hu heven
    rw [readsAsStyle_iff.2 ⟨hbegins.of_append hne, hbracket⟩] at hnot
    cases hnot

/-- The induction is on the pieces; what stands before them matters as far as it may end in
backslashes. -/
theorem ownTag_or_leftOpen : ∀ {ps : List Part} {u cs : List Char}, IsMarkup ps → Meets cs ps →
    chars ps = u ++ '[' :: (name ++ ']' :: after) → slashes (cs ++ u) % 2 = 0 →
      OwnTag ps u name ∨ LeftOpen ps u
  | [], u, _, _, _, h, _ => by
    have hlength := congrArg List.length h
    simp [chars] at hlength
  | p :: ps, u, cs, hps, hmeets, h, heven => by
    -- The tag begins in a later piece or in this one.
    rcases append_eq_cases h with ⟨u', rfl, hrest⟩ | ⟨v, hu, hv⟩
    · rw [← List.append_assoc] at heven
      exact (ownTag_or_leftOpen hps.tail (hps.meets cs) hrest heven).imp
        (fun h => h.cons p) fun h => h.cons p
    · cases p with
      | tag style => exact .inl (ownTag_of_tag hnone hps.1 hu hv)
      | words s =>
        have hbegins : BeginsStyle (v ++ chars ps) := hv ▸ hname.append _
        exact absurd hbegins (hps.1.not_begins hu)
      | shown s =>
        rw [slashes_append (hmeets.resolve_right fun hne => hne s rfl)] at heven
        exact .inr (leftOpen_of_shown hnone hname heven hu hv)

end

/-- Where a tag stands there is no text that is shown. -/
theorem LeftOpen.not_ownTag {before name : List Char} (h : LeftOpen ps before) :
    ¬ OwnTag ps before name := by
  obtain ⟨front, s, rest, w, inner, rfl, rfl, hopening⟩ := h
  rintro ⟨front', style, rest', hparts, -, hbefore⟩
  have hlength := congrArg List.length hbefore
  have hescape := congrArg List.length hopening.eq
  rw [List.length_append] at hlength hescape
  -- Neither piece stands before the other one: their places would be different.
  rcases List.append_eq_append_iff.1 hparts with ⟨between, rfl, heq⟩ | ⟨between, rfl, heq⟩
  · cases between with
    | nil => cases heq
    | cons p between =>
      cases heq
      rw [chars_append, chars_cons, List.length_append, List.length_append, Part.chars] at hlength
      rw [List.length_cons] at hescape
      omega
  · cases between with
    | nil => cases heq
    | cons p between =>
      cases heq
      rw [chars_append, chars_cons, List.length_append, List.length_append, Part.chars,
        List.length_cons] at hlength
      omega

theorem LeftOpen.exists_activeTag {before : List Char} (hps : IsMarkup ps)
    (h : LeftOpen ps before) : ∃ name after, ActiveTag (chars ps) before name after := by
  obtain ⟨front, s, rest, w, inner, rfl, rfl, heq, heven, hinner, hbegins, hclose⟩ := h
  obtain ⟨-, x, y, hrest, hx⟩ := firstBracket?_eq_some.1 hclose
  refine ⟨inner ++ x, y, ?_, ?_, ?_, fun c hc => ?_⟩
  · rw [chars_append, chars_cons, Part.chars, heq, hrest]
    simp
  · have hmeets : Meets [] (front ++ .shown s :: rest) := .inl rfl
    have hzero : slashes (chars front) = 0 := hps.slashes_eq_zero hmeets
    rw [slashes_append hzero]
    exact heven
  · rw [hrest, ← List.append_assoc] at hbegins
    refine hbegins.of_append ?_
    intro hnil
    rw [hnil] at hbegins
    obtain ⟨c, hc, hstyle⟩ := hbegins
    cases hc
    exact absurd hstyle (by decide)
  · exact (List.mem_append.1 hc).elim (hinner c) (hx c)

/-- **All tags are pieces of the text unless a text that is shown opens a style** that later pieces
close. -/
theorem allOwn_iff (hps : IsMarkup ps) : AllOwn ps ↔ ∀ before, ¬ LeftOpen ps before := by
  refine ⟨fun hown before hopen => ?_, fun hclosed before name after htag => ?_⟩
  · obtain ⟨name, after, htag⟩ := hopen.exists_activeTag hps
    exact hopen.not_ownTag (hown before name after htag)
  · have hmeets : Meets [] ps := .inl rfl
    have hcases := ownTag_or_leftOpen htag.noBracket htag.begins hps hmeets htag.eq htag.even
    exact hcases.resolve_right (hclosed before)

theorem exists_leftOpen_tag {name : String} : (∃ before, LeftOpen (.tag name :: ps) before) ↔
    ∃ before, LeftOpen ps before := by
  rw [exists_leftOpen_cons]
  exact or_iff_right (by rintro ⟨s, w, inner, ⟨⟩, -⟩)

theorem exists_leftOpen_words {s : String} : (∃ before, LeftOpen (.words s :: ps) before) ↔
    ∃ before, LeftOpen ps before := by
  rw [exists_leftOpen_cons]
  exact or_iff_right (by rintro ⟨t, w, inner, ⟨⟩, -⟩)

/-- A text that is shown is read together with what follows it. -/
theorem exists_leftOpen_shown {s : String} (hrest : ¬ BeginsStyle (chars ps)) :
    (∃ before, LeftOpen (.shown s :: ps) before) ↔
      (LeavesOpen s ∧ firstBracket? (chars ps) = some ']') ∨ ∃ before, LeftOpen ps before := by
  rw [exists_leftOpen_cons, ← exists_opening_iff hrest]
  refine or_congr_left ⟨?_, ?_⟩
  · rintro ⟨_, w, inner, ⟨⟩, hopening⟩
    exact ⟨w, inner, hopening⟩
  · rintro ⟨w, inner, hopening⟩
    exact ⟨s, w, inner, rfl, hopening⟩

/-! ## Guarded texts -/

theorem TagNext.not_shown (h : TagNext ps) (s : String) : ps.head? ≠ some (.shown s) := by
  cases ps with
  | nil => exact h.elim
  | cons p ps =>
    rintro ⟨⟩
    exact h

theorem TagNext.firstBracket? : ∀ {ps : List Part}, TagNext ps →
    firstBracket? (chars ps) = some '['
  | .tag _ :: _, _ => rfl
  | .words s :: rest, h => by
    rw [chars_cons, Part.chars, firstBracket?_append, firstBracket?_eq_none.2 h.1]
    exact firstBracket? h.2

theorem IsGuarded.isMarkup : ∀ {ps : List Part}, IsGuarded ps → IsMarkup ps
  | [], _ => trivial
  | .tag _ :: _, h => ⟨h.1, isMarkup h.2⟩
  | .words _ :: _, h => ⟨h.1, isMarkup h.2⟩
  | .shown _ :: _, h => ⟨h.1.not_shown, isMarkup h.2⟩

theorem IsGuarded.tagNext {s : String} {rest : List Part} : ∀ {front : List Part},
    IsGuarded (front ++ .shown s :: rest) → TagNext rest
  | [], h => h.1
  | p :: front, h => by
    cases p <;> exact tagNext h.2

/-- **Where only words stand between a text that is shown and the next tag, all tags are pieces of
the text.** -/
theorem allOwn_of_isGuarded (h : IsGuarded ps) : AllOwn ps := by
  refine (allOwn_iff h.isMarkup).2 ?_
  rintro before ⟨front, s, rest, w, inner, rfl, -, hopening⟩
  -- Behind the text the first bracket opens a tag, and a style is left open by none.
  have hclose := hopening.closes
  rw [h.tagNext.firstBracket?] at hclose
  cases hclose

theorem TagNext.append : ∀ {ps : List Part}, TagNext ps → ∀ qs : List Part, TagNext (ps ++ qs)
  | .tag _ :: _, _, _ => trivial
  | .words _ :: _, h, qs => ⟨h.1, append h.2 qs⟩

theorem IsGuarded.append : ∀ {ps qs : List Part}, IsGuarded ps → IsGuarded qs → IsGuarded (ps ++ qs)
  | [], _, _, hqs => hqs
  | .tag _ :: _, _, h, hqs => ⟨h.1, append h.2 hqs⟩
  | .words _ :: _, _, h, hqs => ⟨h.1, append h.2 hqs⟩
  | .shown _ :: _, qs, h, hqs => ⟨h.1.append qs, append h.2 hqs⟩

/-- Guarded texts with others between them. -/
theorem isGuarded_intercalate {gap : List Part} (hgap : IsGuarded gap) :
    ∀ {pss : List (List Part)}, (∀ ps ∈ pss, IsGuarded ps) → IsGuarded (gap.intercalate pss)
  | [], _ => trivial
  | [ps], h => by
    rw [List.intercalate_singleton]
    exact h ps List.mem_cons_self
  | ps :: qs :: pss, h => by
    rw [List.intercalate_cons_cons]
    have hrest := isGuarded_intercalate hgap fun rs hrs => h rs (List.mem_cons_of_mem ps hrs)
    exact ((h ps List.mem_cons_self).append hgap).append hrest

/-! ## Writing -/

/-- A text is joined from pieces. -/
def Writes (ps : List Part) (s : String) : Prop := s.toList = chars ps

theorem writes_words (s : String) : Writes [.words s] s := (List.append_nil _).symm

theorem writes_shown (s : String) : Writes [.shown s] (escape s) := (List.append_nil _).symm

theorem Writes.append {qs : List Part} {s t : String} (hs : Writes ps s) (ht : Writes qs t) :
    Writes (ps ++ qs) (s ++ t) := by
  rw [Writes, String.toList_append, chars_append, hs, ht]

/-- Pieces between a tag and the one that ends its style. -/
def inStyle (style : String) (ps : List Part) : List Part := .tag style :: (ps ++ [.tag "/"])

theorem Writes.styled {s : String} (h : Writes ps s) (style : String) :
    Writes (inStyle style ps) (styled style s) := by
  have hclose : "[/]".toList = chars [.tag "/"] := by decide
  rw [Writes, inStyle, chars_cons, chars_append, ← hclose, ← h, Part.chars]
  simp [Markup.styled]

theorem chars_intercalate (gap : List Part) : ∀ pss : List (List Part),
    chars (gap.intercalate pss) = (chars gap).intercalate (pss.map chars)
  | [] => rfl
  | [ps] => by simp
  | ps :: qs :: pss => by
    rw [List.intercalate_cons_cons, chars_append, chars_append, chars_intercalate gap (qs :: pss)]
    simp only [List.map_cons]
    rw [List.intercalate_cons_cons]

/-- Texts with a gap between them. -/
theorem writes_intercalate (gap : String) {pss : List (List Part)} {ss : List String}
    (h : pss.map chars = ss.map String.toList) :
    Writes (List.intercalate [.words gap] pss) (gap.intercalate ss) := by
  have hgap : chars [.words gap] = gap.toList := List.append_nil _
  rw [Writes, String.toList_intercalate, chars_intercalate, h, hgap]

end Workgraph.Markup
