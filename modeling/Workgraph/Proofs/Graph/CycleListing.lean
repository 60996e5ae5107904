import Mathlib.Data.Set.Card
import Workgraph.Proofs.Graph.CycleSearch
/-!
# The list of elementary cycles

The search for elementary cycles stops at a limit, and it leaves paths that cannot be closed. The
list of all cycles (`Links.listing`) has neither: it is the search without the limit, which goes on
from a path wherever it can. The search finds the beginning of that list, as far as the limit
allows (`cycles_eq_take`). The list has every elementary cycle from its least id and from nowhere
else, so up to rotation each of them stands in it exactly once (`isElementary_iff_mem_listing`,
`nodup_listing`).
-/

namespace Workgraph

namespace Links

variable {links : Links}

/-! ## All cycles that begin with a path -/

/-- The elementary cycles that begin with a path, which is given last id first, however many there
are. The bound is on the length of the cycles. -/
def listFrom (links : Links) (start : String) : Nat → List String → List (List String)
  | 0, _ => []
  | n + 1, path => (links.after (path.headD start)).flatMap fun v =>
      if v = start then [path.reverse]
      else if v < start ∨ v ∈ path then []
      else listFrom links start n (v :: path)

/-- The elementary cycles, each from its least id. -/
def listing (links : Links) : List (List String) :=
  links.flatMap fun e => links.listFrom e.1 links.length [e.1]

/-- The cycles that an id adds after the last one of a path. -/
def listOnward (links : Links) (start : String) (n : Nat) (path : List String) (v : String) :
    List (List String) :=
  if v = start then [path.reverse]
  else if v < start ∨ v ∈ path then []
  else listFrom links start n (v :: path)

theorem listFrom_succ (start : String) (n : Nat) (h : String) (rest : List String) :
    links.listFrom start (n + 1) (h :: rest) =
      (links.after h).flatMap (links.listOnward start n (h :: rest)) := rfl

/-- A path that some cycle begins with has a way back to the start. -/
theorem way_of_listFrom {start : String} (n : Nat) :
    ∀ (h : String) (rest : List String), links.listFrom start n (h :: rest) ≠ [] →
      Way links (fun b => b ∈ h :: rest ∨ b < start) start h := by
  induction n with
  | zero => intro h rest hne; exact absurd rfl hne
  | succ n ih =>
    intro h rest hne
    rw [listFrom_succ, ne_eq, List.flatMap_eq_nil_iff] at hne
    push Not at hne
    obtain ⟨v, hv, hne⟩ := hne
    unfold listOnward at hne
    split at hne
    · rename_i hvs
      subst hvs
      exact .last hv
    · split at hne
      · exact absurd rfl hne
      · rename_i hgood
        refine .step hv (fun hbad => hgood hbad.symm) ((ih v (h :: rest) hne).mono ?_)
        rintro b (hb | hb)
        · exact Or.inl (List.mem_cons_of_mem v hb)
        · exact Or.inr hb

/-- Where there is a way back to the start that avoids the path and the ids less than the start,
some cycle begins with the path. -/
theorem listFrom_ne_nil_of_way (hclosed : links.Closed) {start : String} (n : Nat) :
    ∀ (h : String) (rest : List String), (h :: rest).Nodup →
      (∀ u ∈ h :: rest, u ∈ links.names) → n + (h :: rest).length = links.length + 1 →
      Way links (fun b => b ∈ h :: rest ∨ b < start) start h →
      links.listFrom start n (h :: rest) ≠ [] := by
  induction n with
  -- The fuel is not used up, since a path has no id twice, and all of its ids have links.
  | zero =>
    intro h rest hnodup hnames hfuel
    have hle : (h :: rest).length ≤ links.names.length :=
      (List.subperm_of_subset hnodup hnames).length_le
    simp only [names, List.length_map] at hle
    omega
  | succ n ih =>
    intro h rest hnodup hnames hfuel hway
    rw [listFrom_succ, ne_eq, List.flatMap_eq_nil_iff]
    push Not
    cases hway with
    | last hlast =>
      refine ⟨start, hlast, ?_⟩
      simp [listOnward]
    | @step _ v hv hgood hway =>
      have hgood := not_or.1 hgood
      refine ⟨v, hv, ?_⟩
      unfold listOnward
      split
      · simp
      · rw [if_neg (by simp [hgood])]
        refine ih v (h :: rest) (List.nodup_cons.2 ⟨hgood.1, hnodup⟩) ?_ ?_ ?_
        · intro u hu
          rcases List.mem_cons.1 hu with rfl | hu
          · exact hclosed h _ hv
          · exact hnames u hu
        · simp only [List.length_cons] at hfuel ⊢
          omega
        · exact hway.avoid_start.mono (by simp [or_assoc])

/-! ## The search is the beginning of the list -/

theorem take_append_take {α : Type} (n : Nat) (xs ys : List α) :
    (xs.take n ++ ys).take n = (xs ++ ys).take n := by
  rw [List.take_append, List.take_append, List.take_take, List.length_take, min_self]
  congr 2
  omega

/-- Steps that each add a piece, as far as a limit allows, add all pieces as far as it allows. -/
theorem foldl_eq_take {α β : Type} {f : List α → β → List α} {piece : β → List α} {limit : Nat}
    (bs : List β) (hf : ∀ found, ∀ b ∈ bs, found.length ≤ limit →
      f found b = (found ++ piece b).take limit) :
    ∀ found : List α, found.length ≤ limit →
      bs.foldl f found = (found ++ bs.flatMap piece).take limit := by
  induction bs with
  | nil =>
    intro found hfound
    simp [List.take_of_length_le hfound]
  | cons b bs ih =>
    intro found hfound
    rw [List.foldl_cons, hf found b List.mem_cons_self hfound,
      ih (fun found c hc => hf found c (List.mem_cons_of_mem b hc)) _ (List.length_take_le _ _),
      take_append_take, List.flatMap_cons, List.append_assoc]

/-- What the search does with an id after the last one of its path. -/
def extend (links : Links) (limit : Nat) (start : String) (n : Nat) (path : List String)
    (found : List (List String)) (v : String) : List (List String) :=
  if found.length ≥ limit then found
  else if v = start then found ++ [path.reverse]
  else if v < start || path.contains v || !links.closes start path v then found
  else cyclesFrom links limit start n (v :: path) found

theorem cyclesFrom_succ (limit : Nat) (start : String) (n : Nat) (h : String)
    (rest : List String) (found : List (List String)) :
    links.cyclesFrom limit start (n + 1) (h :: rest) found =
      (links.after h).foldl (links.extend limit start n (h :: rest)) found := rfl

/-- The search adds the cycles that begin with its path, as far as the limit allows. -/
theorem cyclesFrom_eq_take (hclosed : links.Closed) (limit : Nat) (start : String) (n : Nat) :
    ∀ (h : String) (rest : List String) (found : List (List String)), found.length ≤ limit →
      links.cyclesFrom limit start n (h :: rest) found =
        (found ++ links.listFrom start n (h :: rest)).take limit := by
  induction n with
  | zero =>
    intro h rest found hfound
    simp [cyclesFrom, listFrom, List.take_of_length_le hfound]
  | succ n ih =>
    intro h rest found hfound
    rw [cyclesFrom_succ, listFrom_succ]
    refine foldl_eq_take _ (fun found v hv hfound => ?_) found hfound
    unfold extend listOnward
    split
    · -- The search is full, so nothing is added.
      rename_i hfull
      rw [List.take_append_of_le_length hfull, List.take_of_length_le hfound]
    · rename_i hroom
      split
      · rw [List.take_of_length_le (by simp; omega)]
      · rename_i hvs
        by_cases hskip : v < start ∨ v ∈ h :: rest
        · have hskip' : (decide (v < start) || (h :: rest).contains v) = true := by
            simpa using hskip
          rw [hskip', Bool.true_or, if_pos rfl, if_pos hskip, List.append_nil,
            List.take_of_length_le hfound]
        · have hskip' : (decide (v < start) || (h :: rest).contains v) = false := by
            simpa using hskip
          rw [hskip', if_neg hskip, Bool.false_or]
          cases hcloses : links.closes start (h :: rest) v with
          | true => exact ih v (h :: rest) found hfound
          | false =>
            -- A path that cannot be closed has no cycles in the list either.
            have hnil : links.listFrom start n (v :: h :: rest) = [] := by
              by_contra hne
              have hway : Way links (fun b => b = v ∨ b ∈ h :: rest ∨ b < start) start v :=
                (way_of_listFrom n v (h :: rest) hne).mono (by simp [or_assoc])
              have hyes := closes_of_way hclosed (hclosed h v hv) hvs hway
              rw [hcloses] at hyes
              cases hyes
            simp [hnil, List.take_of_length_le hfound]

/-- **The search finds the beginning of the list of all elementary cycles**, as far as its limit
allows. -/
theorem cycles_eq_take (hclosed : links.Closed) (limit : Nat) :
    links.cycles limit = links.listing.take limit := by
  have hstep : ∀ found, ∀ e ∈ links, found.length ≤ limit →
      cyclesFrom links limit e.1 links.length [e.1] found =
        (found ++ links.listFrom e.1 links.length [e.1]).take limit :=
    fun found e _ hfound => cyclesFrom_eq_take hclosed limit e.1 links.length e.1 [] found hfound
  exact foldl_eq_take links hstep [] (Nat.zero_le limit)

/-! ## What stands in the list -/

/-- An elementary cycle from its least id: the ids on it, beginning with the given one. -/
structure IsRound (links : Links) (start : String) (c : List String) : Prop where
  first : c.head? = some start
  distinct : c.Nodup
  linked : List.IsChain links.Leads (c ++ [start])
  least : ∀ v ∈ c, start ≤ v

/-- A path that an elementary cycle can begin with, last id first. -/
structure Begins (links : Links) (start : String) (path : List String) : Prop where
  isPath : links.IsPath path
  last : path.getLast? = some start
  least : ∀ v ∈ path, start ≤ v

theorem begins_singleton (start : String) : links.Begins start [start] :=
  ⟨isPath_singleton start, rfl, by simp⟩

theorem Begins.cons {start h v : String} {rest : List String}
    (hpath : links.Begins start (h :: rest)) (hv : links.Leads h v) (hleast : ¬ v < start)
    (hnew : v ∉ h :: rest) : links.Begins start (v :: h :: rest) where
  isPath := hpath.isPath.cons hv hnew
  last := by rw [List.getLast?_cons_cons]; exact hpath.last
  least := List.forall_mem_cons.2 ⟨not_lt.1 hleast, hpath.least⟩

/-- A path whose last id leads to the start is a round. -/
theorem Begins.isRound {start h : String} {rest : List String}
    (hpath : links.Begins start (h :: rest)) (hback : links.Leads h start) :
    links.IsRound start (h :: rest).reverse where
  first := by rw [List.head?_reverse]; exact hpath.last
  distinct := List.nodup_reverse.2 hpath.isPath.distinct
  linked := by
    have hround : List.IsChain (fun b a => links.Leads a b) (start :: h :: rest) :=
      List.isChain_cons_cons.2 ⟨hback, hpath.isPath.linked⟩
    have hforth := List.isChain_reverse.2 hround
    simpa using hforth
  least v hv := hpath.least v (List.mem_reverse.1 hv)

theorem prefix_of_mem_listFrom {start : String} (n : Nat) :
    ∀ (path c : List String), c ∈ links.listFrom start n path → path.reverse <+: c := by
  induction n with
  | zero => intro path c hc; cases hc
  | succ n ih =>
    intro path c hc
    simp only [listFrom, List.mem_flatMap] at hc
    obtain ⟨v, -, hc⟩ := hc
    split at hc
    · rw [List.mem_singleton.1 hc]
    · split at hc
      · cases hc
      · refine List.IsPrefix.trans ?_ (ih (v :: path) c hc)
        rw [List.reverse_cons]
        exact List.prefix_append _ _

/-- **The list from a path has the rounds that begin with it**, as far as its bound allows. -/
theorem mem_listFrom_iff {start : String} (n : Nat) :
    ∀ (h : String) (rest c : List String), links.Begins start (h :: rest) →
      (c ∈ links.listFrom start n (h :: rest) ↔
        (h :: rest).reverse <+: c ∧ links.IsRound start c ∧ c.length < n + (h :: rest).length) := by
  induction n with
  | zero =>
    intro h rest c _
    simp only [listFrom, List.not_mem_nil, false_iff]
    rintro ⟨hbegin, -, hlength⟩
    have hle := hbegin.length_le
    rw [List.length_reverse] at hle
    omega
  | succ n ih =>
    intro h rest c hbegins
    rw [listFrom_succ, List.mem_flatMap]
    constructor
    · rintro ⟨v, hv, hc⟩
      unfold listOnward at hc
      split at hc
      · rename_i hvs
        subst hvs
        rw [List.mem_singleton.1 hc]
        refine ⟨List.prefix_refl _, hbegins.isRound hv, ?_⟩
        rw [List.length_reverse]
        omega
      · split at hc
        · cases hc
        · rename_i hgood
          have hgood := not_or.1 hgood
          obtain ⟨hbegin, hround, hlength⟩ :=
            (ih v (h :: rest) c (hbegins.cons hv hgood.1 hgood.2)).1 hc
          rw [List.reverse_cons] at hbegin
          refine ⟨(List.prefix_append _ _).trans hbegin, hround, ?_⟩
          rw [List.length_cons] at hlength
          omega
    · rintro ⟨⟨behind, rfl⟩, hround, hlength⟩
      -- The cycle either goes back to the start or on to an id, which leads from the last one.
      have hlinked := hround.linked
      rw [List.reverse_cons, List.append_assoc, List.append_assoc] at hlinked
      have hnext := (List.isChain_append.1 hlinked).2.1
      cases behind with
      | nil =>
        refine ⟨start, ?_, by simp [listOnward]⟩
        exact List.isChain_pair.1 hnext
      | cons v behind =>
        have hv : links.Leads h v := by
          simp only [List.cons_append, List.nil_append, List.isChain_cons_cons] at hnext
          exact hnext.1
        have hdistinct := hround.distinct
        have hnew : v ∉ h :: rest := by
          intro hmem
          have hdisjoint := (List.nodup_append.1 hdistinct).2.2
          exact hdisjoint v (List.mem_reverse.2 hmem) v List.mem_cons_self rfl
        have hstart : start ∈ h :: rest := List.mem_of_getLast? hbegins.last
        have hvs : v ≠ start := fun heq => hnew (heq ▸ hstart)
        have hleast : ¬ v < start := not_lt.2 (hround.least v (by simp))
        refine ⟨v, hv, ?_⟩
        unfold listOnward
        rw [if_neg hvs, if_neg (not_or.2 ⟨hleast, hnew⟩)]
        refine (ih v (h :: rest) _ (hbegins.cons hv hleast hnew)).2 ⟨?_, hround, ?_⟩
        · exact ⟨behind, by simp⟩
        · have hcount : (v :: h :: rest).length = (h :: rest).length + 1 := rfl
          omega

/-- Every id of a round has links. -/
theorem IsRound.subset_names {start : String} {c : List String} (h : links.IsRound start c) :
    c ⊆ links.names := by
  intro a ha
  obtain ⟨before, behind, rfl⟩ := List.append_of_mem ha
  have hlinked := h.linked
  rw [List.append_assoc] at hlinked
  have hnext := (List.isChain_append.1 hlinked).2.1
  cases behind with
  | nil => exact mem_names_of_leads (List.isChain_pair.1 hnext)
  | cons b behind => exact mem_names_of_leads (List.isChain_cons_cons.1 hnext).1

/-- **The list has every elementary cycle from its least id**, and nothing else. -/
theorem mem_listing_iff {c : List String} : c ∈ links.listing ↔ ∃ start, links.IsRound start c := by
  unfold listing
  rw [List.mem_flatMap]
  constructor
  · rintro ⟨e, -, hc⟩
    exact ⟨e.1, ((mem_listFrom_iff _ e.1 [] c (begins_singleton e.1)).1 hc).2.1⟩
  · rintro ⟨start, hround⟩
    have hmem : start ∈ c := List.mem_of_head? hround.first
    obtain ⟨e, he, rfl⟩ := List.mem_map.1 (hround.subset_names hmem)
    refine ⟨e, he, (mem_listFrom_iff _ e.1 [] c (begins_singleton e.1)).2 ⟨?_, hround, ?_⟩⟩
    · obtain ⟨behind, rfl⟩ : ∃ behind, c = e.1 :: behind := List.head?_eq_some_iff.1 hround.first
      exact ⟨behind, rfl⟩
    · have hle := (List.subperm_of_subset hround.distinct hround.subset_names).length_le
      rw [names, List.length_map] at hle
      simp only [List.length_singleton]
      omega

theorem IsRound.isElementary {start : String} {c : List String} (h : links.IsRound start c) :
    IsElementary links.Leads c := by
  obtain ⟨behind, rfl⟩ := List.head?_eq_some_iff.1 h.first
  exact isElementary_cons.2 ⟨h.distinct, h.linked⟩

/-- An elementary cycle can be begun from its least id. -/
theorem exists_isRound {c : Cycle String} (h : IsElementary links.Leads c) :
    ∃ (start : String) (l : List String), links.IsRound start l ∧ (l : Cycle String) = c := by
  induction c using Quotient.inductionOn' with
  | h l =>
    have hne : l ≠ [] := fun hnil => h.nonempty ((Cycle.coe_eq_nil l).2 hnil)
    obtain ⟨start, hmem, hleast⟩ : ∃ start ∈ l, ∀ v ∈ l, start ≤ v := by
      obtain ⟨start, hmem, hmin⟩ := l.toFinset.exists_min_image id
        (List.toFinset_nonempty_iff l |>.2 hne)
      exact ⟨start, List.mem_toFinset.1 hmem, fun v hv => hmin v (List.mem_toFinset.2 hv)⟩
    obtain ⟨before, behind, rfl⟩ := List.append_of_mem hmem
    -- What stands before the least id is put behind the rest.
    have hrotated : (start :: behind ++ before) ~r (before ++ start :: behind) :=
      List.isRotated_append
    have hsame : ((start :: (behind ++ before) : List String) : Cycle String) =
        (before ++ start :: behind : List String) := Cycle.coe_eq_coe.2 hrotated
    have helementary : IsElementary links.Leads (start :: (behind ++ before) : List String) := by
      rw [hsame]
      exact h
    obtain ⟨hdistinct, hlinked⟩ := isElementary_cons.1 helementary
    refine ⟨start, start :: (behind ++ before), ⟨rfl, hdistinct, hlinked, ?_⟩, hsame⟩
    intro v hv
    exact hleast v (hrotated.mem_iff.1 hv)

/-- The elementary cycles are those of the list, up to rotation. -/
theorem isElementary_iff_mem_listing {c : Cycle String} :
    IsElementary links.Leads c ↔ ∃ l ∈ links.listing, (l : Cycle String) = c := by
  constructor
  · intro h
    obtain ⟨start, l, hround, hl⟩ := exists_isRound h
    exact ⟨l, mem_listing_iff.2 ⟨start, hround⟩, hl⟩
  · rintro ⟨l, hl, rfl⟩
    obtain ⟨start, hround⟩ := mem_listing_iff.1 hl
    exact hround.isElementary

/-- The list is empty exactly if no way leads back to its start. -/
theorem listing_eq_nil_iff (hclosed : links.Closed) : links.listing = [] ↔ links.Acyclic := by
  constructor
  · intro hnil a hcycle
    obtain ⟨start, hstart, hway⟩ := exists_way_of_cycle hcycle
    obtain ⟨e, he, rfl⟩ := List.mem_map.1 hstart
    have hne := listFrom_ne_nil_of_way hclosed links.length e.1 [] (by simp) (by simpa using hstart)
      (by simp) hway
    exact hne (List.flatMap_eq_nil_iff.1 hnil e he)
  · intro hacyclic
    by_contra hne
    obtain ⟨l, hl⟩ := List.exists_mem_of_ne_nil _ hne
    obtain ⟨start, hround⟩ := mem_listing_iff.1 hl
    obtain ⟨a, ha⟩ := hround.isElementary.exists_transGen
    exact hacyclic a ha

/-- The list of elementary cycles is empty exactly if there are none. -/
theorem cycles_eq_nil_iff (hclosed : links.Closed) {limit : Nat} (hlimit : 0 < limit) :
    links.cycles limit = [] ↔ links.Acyclic := by
  rw [cycles_eq_take hclosed, List.take_eq_nil_iff, listing_eq_nil_iff hclosed]
  simp [Nat.ne_of_gt hlimit]

/-! ## No cycle stands in the list twice -/

theorem nodup_listFrom (hafter : ∀ a, (links.after a).Nodup) {start : String} (n : Nat) :
    ∀ path : List String, (links.listFrom start n path).Nodup := by
  induction n with
  | zero => intro path; exact List.nodup_nil
  | succ n ih =>
    intro path
    -- The id that comes next tells the cycles of one piece from those of the others.
    have hnext : ∀ v, ∀ cycle ∈ links.listOnward start n path v,
        cycle[path.length]? = if v = start then none else some v := by
      intro v c hc
      unfold listOnward at hc
      split at hc
      · rw [List.mem_singleton.1 hc]
        simp [*]
      · split at hc
        · cases hc
        · obtain ⟨behind, rfl⟩ := prefix_of_mem_listFrom n (v :: path) c hc
          simp [*]
    refine List.nodup_flatMap.2 ⟨fun v _ => ?_, (hafter _).imp fun {v w} hvw => ?_⟩
    · split
      · exact List.nodup_singleton _
      · split
        · exact List.nodup_nil
        · exact ih (v :: path)
    · intro c hcv hcw
      have hv := hnext v c hcv
      rw [hnext w c hcw] at hv
      split at hv <;> split at hv <;> simp_all

/-- Two rounds of one cycle are the same list. -/
theorem IsRound.eq_of_coe_eq {start start' : String} {c c' : List String}
    (h : links.IsRound start c) (h' : links.IsRound start' c')
    (hsame : (c : Cycle String) = c') : c = c' := by
  obtain ⟨behind, rfl⟩ := List.head?_eq_some_iff.1 h.first
  obtain ⟨behind', rfl⟩ := List.head?_eq_some_iff.1 h'.first
  have hrotated := Cycle.coe_eq_coe.1 hsame
  have hstart : start = start' :=
    le_antisymm (h.least _ (hrotated.mem_iff.2 List.mem_cons_self))
      (h'.least _ (hrotated.mem_iff.1 List.mem_cons_self))
  subst hstart
  -- The least id comes only once, so the rotation takes it to where it is.
  obtain ⟨k, hrotate⟩ := hrotated
  have hfirst : (start :: behind)[k % (start :: behind).length]? = some start := by
    have hlt : k % (start :: behind).length < (start :: behind).length := Nat.mod_lt _ (by simp)
    rw [← List.head?_rotate hlt, List.rotate_mod, hrotate]
    rfl
  have hzero : k % (start :: behind).length = 0 := by
    obtain ⟨hlt, hget⟩ := List.getElem?_eq_some_iff.1 hfirst
    have hsame : (start :: behind)[k % (start :: behind).length] = (start :: behind)[0] := hget
    exact (List.Nodup.getElem_inj_iff h.distinct).1 hsame
  rw [← hrotate, ← List.rotate_mod, hzero, List.rotate_zero]

/-- **No cycle stands in the list twice**, not even rotated. -/
theorem nodup_listing (hnames : links.names.Nodup) (hafter : ∀ a, (links.after a).Nodup) :
    (links.listing.map Cycle.ofList).Nodup := by
  refine List.Nodup.map_on ?_ ?_
  · intro c hc c' hc' hsame
    obtain ⟨start, hround⟩ := mem_listing_iff.1 hc
    obtain ⟨start', hround'⟩ := mem_listing_iff.1 hc'
    exact hround.eq_of_coe_eq hround' hsame
  · refine List.nodup_flatMap.2 ⟨fun e _ => nodup_listFrom hafter _ _, ?_⟩
    refine (List.pairwise_map.1 hnames).imp fun {e e'} hne => ?_
    intro c hc hc'
    obtain ⟨behind, hb⟩ := prefix_of_mem_listFrom _ _ _ hc
    obtain ⟨behind', hb'⟩ := prefix_of_mem_listFrom _ _ _ hc'
    rw [← hb] at hb'
    exact hne (List.cons.inj hb').1.symm

end Links

end Workgraph
