import Mathlib.Data.Finset.Max
import Mathlib.Data.List.Cycle
import Mathlib.Data.String.Basic
import Mathlib.Logic.Relation
import Workgraph.Graph.Cycle
import Workgraph.Proofs.Entries
/-!
# The search for one reference cycle

Large graphs are walked through in depth. The walk is compared with `Links.Leads`, the relation from
an id to the ids after it: it ends without a cycle exactly when no way along this relation returns
to its start (`firstCycle?_eq_none_iff`), and the cycle at which it stops is elementary
(`isElementary_of_firstCycle?`). What is closed off from a way back to its start is said of ways
that avoid ids (`Links.Way`), for the list of all elementary cycles.
-/

namespace Workgraph

/-- An elementary cycle of a relation: no id comes twice, and each leads to the next one, the last
to the first. Where it begins does not matter. -/
structure IsElementary (leads : String → String → Prop) (c : Cycle String) : Prop where
  nonempty : c ≠ Cycle.nil
  distinct : c.Nodup
  linked : c.Chain leads

section
variable {leads : String → String → Prop} {a b : String} {l : List String}

theorem isElementary_cons :
    IsElementary leads ((a :: l : List String) : Cycle String) ↔
      (a :: l).Nodup ∧ List.IsChain leads (a :: (l ++ [a])) := by
  constructor
  · intro h
    exact ⟨Cycle.nodup_coe_iff.1 h.distinct, (Cycle.chain_coe_cons leads a l).1 h.linked⟩
  · rintro ⟨hnodup, hchain⟩
    refine ⟨?_, Cycle.nodup_coe_iff.2 hnodup, (Cycle.chain_coe_cons leads a l).2 hchain⟩
    simp [Cycle.coe_eq_nil]

/-- A chain from one id to another is a way between them. -/
theorem transGen_of_isChain (h : List.IsChain leads (a :: (l ++ [b]))) :
    Relation.TransGen leads a b := by
  induction l generalizing a with
  | nil => exact .single (List.isChain_pair.1 h)
  | cons c l ih =>
    obtain ⟨hac, hrest⟩ := List.isChain_cons_cons.1 h
    exact .head hac (ih hrest)

/-- The ids of an elementary cycle lie on a way back to themselves. -/
theorem IsElementary.exists_transGen {c : Cycle String} (h : IsElementary leads c) :
    ∃ a, Relation.TransGen leads a a := by
  induction c using Cycle.induction_on with
  | nil => exact absurd rfl h.nonempty
  | cons a l _ => exact ⟨a, transGen_of_isChain (isElementary_cons.1 h).2⟩

end

namespace Links

variable (links : Links)

/-- The first id is followed by the second. -/
def Leads (a b : String) : Prop := b ∈ links.after a

/-- No way along the links leads back to its start. -/
def Acyclic : Prop := ∀ a, ¬ Relation.TransGen links.Leads a a

/-- The ids that have links. -/
def names : List String := links.map Prod.fst

/-- Links lead to ids that have links themselves. -/
def Closed : Prop := ∀ a b, links.Leads a b → b ∈ links.names

variable {links : Links}

theorem mem_names_of_leads {a b : String} (h : links.Leads a b) : a ∈ links.names := by
  unfold Leads after at h
  cases hg : links.get? a with
  | none => simp [hg] at h
  | some targets => exact Entries.mem_names_of_get? hg

/-- An id from which every way ends lies on no cycle. -/
theorem not_transGen_of_acc {a : String} (h : Acc (fun b a => links.Leads a b) a) :
    ¬ Relation.TransGen links.Leads a a := by
  induction h with
  | intro a _ ih =>
    intro hcycle
    -- The next id on the cycle lies on one, too, and is nearer to the ends of all ways.
    obtain ⟨b, hab, hba⟩ := Relation.TransGen.head'_iff.1 hcycle
    exact ih b hab (Relation.TransGen.tail' hba hab)

/-! ## The walk in depth -/

/-- What the walk in depth does with an id after the last one of its path. -/
def visit (links : Links) (n : Nat) (path seen : List String) (v : String) :
    Except (List String) (List String) :=
  if path.contains v then .error ((path.takeWhile (· ≠ v)) ++ [v]).reverse
  else if seen.contains v then .ok seen
  else descend links n (v :: path) (v :: seen)

theorem descend_succ (n : Nat) (h : String) (rest seen : List String) :
    links.descend (n + 1) (h :: rest) seen =
      (links.after h).foldlM (links.visit n (h :: rest)) seen := rfl

/-- The path of a walk, which is given last id first: no id comes twice, and each leads to the one
given before it. -/
structure IsPath (links : Links) (path : List String) : Prop where
  distinct : path.Nodup
  linked : List.IsChain (fun b a => links.Leads a b) path

theorem isPath_singleton (a : String) : links.IsPath [a] :=
  ⟨List.nodup_singleton a, List.isChain_singleton a⟩

theorem IsPath.cons {h v : String} {rest : List String} (hpath : links.IsPath (h :: rest))
    (hv : links.Leads h v) (hnew : v ∉ h :: rest) : links.IsPath (v :: h :: rest) :=
  ⟨List.nodup_cons.2 ⟨hnew, hpath.distinct⟩, List.isChain_cons_cons.2 ⟨hv, hpath.linked⟩⟩

/-- A link back into the path closes an elementary cycle: the part of the path from there on. -/
theorem IsPath.isElementary {h v : String} {rest : List String} (hpath : links.IsPath (h :: rest))
    (hv : links.Leads h v) (hmem : v ∈ h :: rest) :
    IsElementary links.Leads
      (((h :: rest).takeWhile (· ≠ v) ++ [v]).reverse : List String) := by
  obtain ⟨before, behind, hsplit, hnot⟩ := List.eq_append_cons_of_mem hmem
  have htake : (h :: rest).takeWhile (· ≠ v) = before := by
    rw [hsplit, List.takeWhile_append_of_pos (by grind)]
    simp
  have hfirst : (before ++ [v]).head? = some h := by
    cases before with
    | nil => exact congrArg some (List.cons.inj hsplit).1.symm
    | cons u before => exact congrArg some (List.cons.inj hsplit).1.symm
  -- The part of the path up to the id, and before it the id once more.
  have hpart : (before ++ [v]) <+: h :: rest := ⟨behind, by simp [hsplit]⟩
  have hround : List.IsChain (fun b a => links.Leads a b) (v :: (before ++ [v])) := by
    refine List.isChain_cons.2 ⟨?_, hpath.linked.prefix hpart⟩
    intro u hu
    rw [hfirst] at hu
    cases hu
    exact hv
  rw [htake, List.reverse_append]
  refine isElementary_cons.2 ⟨?_, ?_⟩
  · have hdistinct := List.nodup_reverse.2 (hpath.distinct.sublist hpart.sublist)
    simpa using hdistinct
  · have hback := List.isChain_reverse.2 hround
    simpa using hback

/-- A step that meets the path closes a cycle; any other error comes from further down. -/
theorem isElementary_of_visits_error {n : Nat} {h : String} {rest : List String}
    (hpath : links.IsPath (h :: rest))
    (hdescend : ∀ v seen cycle, links.IsPath (v :: h :: rest) →
      links.descend n (v :: h :: rest) seen = .error cycle → IsElementary links.Leads cycle) :
    ∀ (vs seen cycle : List String), (∀ v ∈ vs, links.Leads h v) →
      vs.foldlM (links.visit n (h :: rest)) seen = .error cycle →
      IsElementary links.Leads cycle := by
  intro vs
  induction vs with
  | nil => intro seen cycle _ herr; simp [pure, Except.pure] at herr
  | cons v vs ih =>
    intro seen cycle hvs herr
    have hv : links.Leads h v := hvs v List.mem_cons_self
    have hrest := fun u hu => hvs u (List.mem_cons_of_mem _ hu)
    rw [List.foldlM_cons] at herr
    unfold visit at herr
    split at herr
    · rename_i hmem
      cases herr
      exact hpath.isElementary hv (by simpa using hmem)
    · rename_i hmem
      split at herr
      · exact ih seen cycle hrest herr
      · cases hd : links.descend n (v :: h :: rest) (v :: seen) with
        | error c =>
          rw [hd] at herr
          cases herr
          exact hdescend v _ cycle (hpath.cons hv (by simpa using hmem)) hd
        | ok seen' =>
          rw [hd] at herr
          exact ih seen' cycle hrest herr

/-- A cycle that the walk stops at is elementary. -/
theorem isElementary_of_descend_error (n : Nat) :
    ∀ (h : String) (rest seen cycle : List String), links.IsPath (h :: rest) →
      links.descend n (h :: rest) seen = .error cycle → IsElementary links.Leads cycle := by
  induction n with
  | zero => intro h rest seen cycle _ herr; simp [descend] at herr
  | succ n ih =>
    intro h rest seen cycle hpath herr
    rw [descend_succ] at herr
    exact isElementary_of_visits_error hpath (fun v => ih v (h :: rest)) _ seen cycle
      (fun v hv => hv) herr

/-- What the walk in depth makes of the ids it has seen: all are kept, and every way ends from
those that are not on the given path. -/
def Explored (links : Links) (path seen seen' : List String) : Prop :=
  (∀ u ∈ seen, u ∈ seen') ∧ ∀ u ∈ seen', u ∉ path → Acc (fun b a => links.Leads a b) u

/-- The ids that follow the last one of the path have been seen after it has been dealt with, and
none of them is on the path. -/
theorem explored_of_visits_ok {n : Nat} {h : String} {rest : List String}
    (hdescend : ∀ v seen seen', links.Leads h v → v ∉ h :: rest →
      (∀ u ∈ seen, u ∉ h :: rest → Acc (fun b a => links.Leads a b) u) →
      links.descend n (v :: h :: rest) (v :: seen) = .ok seen' →
      links.Explored (h :: rest) (v :: seen) seen') :
    ∀ (vs seen seen' : List String), (∀ v ∈ vs, links.Leads h v) →
      (∀ u ∈ seen, u ∉ h :: rest → Acc (fun b a => links.Leads a b) u) →
      vs.foldlM (links.visit n (h :: rest)) seen = .ok seen' →
      links.Explored (h :: rest) seen seen' ∧ ∀ v ∈ vs, v ∈ seen' ∧ v ∉ h :: rest := by
  intro vs
  induction vs with
  | nil =>
    intro seen seen' _ hacc hok
    obtain rfl : seen = seen' := by simpa [pure, Except.pure] using hok
    exact ⟨⟨fun u hu => hu, hacc⟩, by simp⟩
  | cons v vs ih =>
    intro seen seen' hvs hacc hok
    have hv : links.Leads h v := hvs v List.mem_cons_self
    have hrest := fun u hu => hvs u (List.mem_cons_of_mem _ hu)
    rw [List.foldlM_cons] at hok
    unfold visit at hok
    split at hok
    · cases hok
    · rename_i hpath
      have hpath : v ∉ h :: rest := by simpa using hpath
      split at hok
      · rename_i hold
        obtain ⟨hkeep, hvs'⟩ := ih seen seen' hrest hacc hok
        refine ⟨hkeep, ?_⟩
        intro u hu
        rcases List.mem_cons.1 hu with rfl | hu
        · exact ⟨hkeep.1 _ (by simpa using hold), hpath⟩
        · exact hvs' u hu
      · cases hd : links.descend n (v :: h :: rest) (v :: seen) with
        | error c => rw [hd] at hok; cases hok
        | ok seen₁ =>
          rw [hd] at hok
          obtain ⟨hkeep₁, hacc₁⟩ := hdescend v seen seen₁ hv hpath hacc hd
          obtain ⟨⟨hkeep, hacc'⟩, hvs'⟩ := ih seen₁ seen' hrest hacc₁ hok
          refine ⟨⟨fun u hu => hkeep u (hkeep₁ u (List.mem_cons_of_mem _ hu)), hacc'⟩, ?_⟩
          intro u hu
          rcases List.mem_cons.1 hu with rfl | hu
          · exact ⟨hkeep _ (hkeep₁ _ List.mem_cons_self), hpath⟩
          · exact hvs' u hu

/-- The walk in depth is exhaustive: once it has gone on from an id without meeting its path, every
way from an id seen before ends, unless that id is on the rest of the path. -/
theorem explored_of_descend_ok (hclosed : links.Closed) (n : Nat) :
    ∀ (h : String) (rest seen seen' : List String),
      (h :: rest).Nodup → (∀ u ∈ h :: rest, u ∈ links.names) →
      n + (h :: rest).length = links.length + 2 →
      (∀ u ∈ seen, u ∉ h :: rest → Acc (fun b a => links.Leads a b) u) →
      links.descend n (h :: rest) seen = .ok seen' →
      links.Explored rest seen seen' := by
  induction n with
  -- The induction is on the fuel. It is not used up, since a path has no id twice, and all of its
  -- ids have links.
  | zero =>
    intro h rest seen seen' hnodup hnames hfuel
    have hle : (h :: rest).length ≤ links.names.length :=
      (List.subperm_of_subset hnodup hnames).length_le
    simp only [names, List.length_map] at hle
    omega
  | succ n ih =>
    intro h rest seen seen' hnodup hnames hfuel hacc hok
    rw [descend_succ] at hok
    have hdescend : ∀ v seen seen', links.Leads h v → v ∉ h :: rest →
        (∀ u ∈ seen, u ∉ h :: rest → Acc (fun b a => links.Leads a b) u) →
        links.descend n (v :: h :: rest) (v :: seen) = .ok seen' →
        links.Explored (h :: rest) (v :: seen) seen' := by
      intro v seen seen' hv hpath hacc hd
      refine ih v (h :: rest) (v :: seen) seen' (List.nodup_cons.2 ⟨hpath, hnodup⟩) ?_ ?_ ?_ hd
      · intro u hu
        rcases List.mem_cons.1 hu with rfl | hu
        · exact hclosed h _ hv
        · exact hnames u hu
      · simp only [List.length_cons] at hfuel ⊢
        omega
      · intro u hu hnot
        simp only [List.mem_cons, not_or] at hu hnot
        exact hacc u (hu.resolve_left hnot.1) (by simpa using hnot.2)
    obtain ⟨⟨hkeep, hacc'⟩, hvs⟩ :=
      explored_of_visits_ok hdescend _ seen seen' (fun v hv => hv) hacc hok
    refine ⟨hkeep, ?_⟩
    intro u hu hnot
    -- All that follows the last id of the path has been dealt with, so every way from it ends.
    by_cases huh : u = h
    · subst huh
      refine Acc.intro _ fun w hw => ?_
      exact hacc' w (hvs w hw).1 (hvs w hw).2
    · refine hacc' u hu ?_
      simp [huh, hnot]

/-- The walk from one id after another, past those already seen. -/
def walk (links es : Links) (seen : List String) : Except (List String) (List String) :=
  es.foldlM (fun seen e =>
    if seen.contains e.1 then .ok seen
    else descend links (links.length + 1) [e.1] (e.1 :: seen)) seen

theorem walk_cons (e : String × List String) (es : Links) (seen : List String) :
    links.walk (e :: es) seen =
      (if seen.contains e.1 then .ok seen
        else descend links (links.length + 1) [e.1] (e.1 :: seen)) >>= links.walk es := by
  unfold walk
  rw [List.foldlM_cons]

theorem firstCycle?_eq_none_iff_walk :
    links.firstCycle? = none ↔ ∃ seen, links.walk links [] = .ok seen := by
  unfold firstCycle? walk
  simp only
  split
  · rename_i herr
    rw [herr]
    simp
  · rename_i seen hok
    rw [hok]
    simp

theorem isElementary_of_walk_error {es : Links} {seen cycle : List String}
    (h : links.walk es seen = .error cycle) : IsElementary links.Leads cycle := by
  induction es generalizing seen with
  | nil => simp [walk, pure, Except.pure] at h
  | cons e es ih =>
    rw [walk_cons] at h
    split at h
    · exact ih h
    · cases hd : links.descend (links.length + 1) [e.1] (e.1 :: seen) with
      | error c =>
        rw [hd] at h
        cases h
        exact isElementary_of_descend_error _ e.1 [] _ cycle (isPath_singleton e.1) hd
      | ok seen' =>
        rw [hd] at h
        exact ih h

theorem explored_of_walk_ok (hclosed : links.Closed) {es : Links} {seen seen' : List String}
    (hes : ∀ e ∈ es, e.1 ∈ links.names)
    (hacc : ∀ u ∈ seen, Acc (fun b a => links.Leads a b) u)
    (h : links.walk es seen = .ok seen') :
    links.Explored [] seen seen' ∧ ∀ e ∈ es, e.1 ∈ seen' := by
  induction es generalizing seen with
  | nil =>
    obtain rfl : seen = seen' := by simpa [walk, pure, Except.pure] using h
    exact ⟨⟨fun u hu => hu, fun u hu _ => hacc u hu⟩, by simp⟩
  | cons e es ih =>
    have hrest := fun u hu => hes u (List.mem_cons_of_mem _ hu)
    rw [walk_cons] at h
    split at h
    · rename_i hold
      obtain ⟨hkeep, hes'⟩ := ih hrest hacc h
      refine ⟨hkeep, ?_⟩
      intro u hu
      rcases List.mem_cons.1 hu with rfl | hu
      · exact hkeep.1 _ (by simpa using hold)
      · exact hes' u hu
    · cases hd : links.descend (links.length + 1) [e.1] (e.1 :: seen) with
      | error c => rw [hd] at h; cases h
      | ok seen₁ =>
        rw [hd] at h
        obtain ⟨hkeep₁, hacc₁⟩ := explored_of_descend_ok hclosed _ e.1 [] _ seen₁ (by simp)
          (by simpa using hes e List.mem_cons_self) (by simp)
          (by
            intro u hu hnot
            simp only [List.mem_cons, List.not_mem_nil, or_false] at hu hnot
            exact hacc u (hu.resolve_left hnot)) hd
        obtain ⟨⟨hkeep, hacc'⟩, hes'⟩ := ih hrest (fun u hu => hacc₁ u hu (by simp)) h
        refine ⟨⟨fun u hu => hkeep u (hkeep₁ u (List.mem_cons_of_mem _ hu)), hacc'⟩, ?_⟩
        intro u hu
        rcases List.mem_cons.1 hu with rfl | hu
        · exact hkeep _ (hkeep₁ _ List.mem_cons_self)
        · exact hes' u hu

/-- The walk in depth finds no cycle exactly if there is none. -/
theorem firstCycle?_eq_none_iff (hclosed : links.Closed) :
    links.firstCycle? = none ↔ links.Acyclic := by
  rw [firstCycle?_eq_none_iff_walk]
  constructor
  · rintro ⟨seen, hok⟩ a hcycle
    obtain ⟨⟨-, hacc⟩, hes⟩ := explored_of_walk_ok hclosed (fun e he => List.mem_map_of_mem he)
      (by simp) hok
    obtain ⟨b, hab, -⟩ := Relation.TransGen.head'_iff.1 hcycle
    obtain ⟨e, he, rfl⟩ := List.mem_map.1 (mem_names_of_leads hab)
    exact not_transGen_of_acc (hacc _ (hes e he) (by simp)) hcycle
  · intro hacyclic
    cases hw : links.walk links [] with
    | error c =>
      obtain ⟨a, ha⟩ := (isElementary_of_walk_error hw).exists_transGen
      exact absurd ha (hacyclic a)
    | ok seen => exact ⟨seen, rfl⟩

/-- The cycle that the walk in depth finds is elementary. -/
theorem isElementary_of_firstCycle? {cycle : List String} (h : links.firstCycle? = some cycle) :
    IsElementary links.Leads cycle := by
  have hwalk : links.walk links [] = .error cycle := by
    unfold firstCycle? at h
    unfold walk
    simp only at h
    split at h
    · rename_i herr
      rw [herr, Option.some.inj h]
    · cases h
  exact isElementary_of_walk_error hwalk

/-! ## Reaching ids round by round -/

/-- Ids that have been reached stay reached. -/
theorem subset_reach (n : Nat) :
    ∀ closed frontier : List String, ∀ u ∈ closed, u ∈ links.reach n closed frontier := by
  induction n with
  | zero => intro closed frontier u hu; exact hu
  | succ n ih =>
    intro closed frontier u hu
    simp only [reach]
    split
    · exact hu
    · exact ih _ _ u (List.mem_append_left _ hu)

/-- The rounds go on until nothing new is found: whatever follows an id of the frontier, or an id
reached later, is reached as well. -/
theorem after_subset_reach (hclosed : links.Closed) (n : Nat) :
    ∀ closed frontier : List String,
      (links.names.filter fun u => !closed.contains u).length < n →
      ∀ u, (u ∈ frontier ∨ u ∈ links.reach n closed frontier ∧ u ∉ closed) →
        ∀ w, links.Leads u w → w ∈ links.reach n closed frontier := by
  induction n with
  | zero => intro closed frontier hfuel; omega
  | succ n ih =>
    intro closed frontier hfuel u hu w hw
    simp only [reach] at hu ⊢
    -- What this round finds; the next one starts from it if it is anything at all.
    generalize hfresh :
      ((frontier.flatMap links.after).filter fun v => !closed.contains v).eraseDups = fresh
    rw [hfresh] at hu
    have hmem : ∀ v, v ∈ fresh ↔ (∃ x ∈ frontier, links.Leads x v) ∧ v ∉ closed := by
      intro v
      simp [← hfresh, Leads]
    by_cases hempty : fresh.isEmpty
    · rw [if_pos hempty] at hu ⊢
      rcases hu with hu | ⟨hu, hnot⟩
      · by_contra hnot
        have hv := (hmem w).2 ⟨⟨u, hu, hw⟩, hnot⟩
        rw [List.isEmpty_iff.1 hempty] at hv
        simp at hv
      · exact absurd hu hnot
    · rw [if_neg hempty] at hu ⊢
      obtain ⟨v, hv⟩ := List.exists_mem_of_ne_nil _ (mt List.isEmpty_iff.2 hempty)
      obtain ⟨⟨x, -, hxv⟩, hvc⟩ := (hmem v).1 hv
      -- Every round that finds something leaves fewer ids that are not closed.
      have hless : (links.names.filter fun u => !(closed ++ fresh).contains u).length < n := by
        have hsplit : (links.names.filter fun u => !(closed ++ fresh).contains u) =
            (links.names.filter fun u => !closed.contains u).filter fun u => !fresh.contains u := by
          rw [List.filter_filter]
          congr 1
          funext u
          simp [Bool.and_comm]
        have hlt : ((links.names.filter fun u => !closed.contains u).filter
            fun u => !fresh.contains u).length <
              (links.names.filter fun u => !closed.contains u).length := by
          rw [List.length_filter_lt_length_iff_exists]
          exact ⟨v, by simp [hclosed x v hxv, hvc], by simp [hv]⟩
        rw [hsplit]
        omega
      have hgrow := ih (closed ++ fresh) fresh hless
      rcases hu with hu | ⟨hu, hnot⟩
      · by_cases hwc : w ∈ closed
        · exact subset_reach n _ _ w (List.mem_append_left _ hwc)
        · exact subset_reach n _ _ w (List.mem_append_right _ ((hmem w).2 ⟨⟨u, hu, hw⟩, hwc⟩))
      · by_cases huf : u ∈ fresh
        · exact hgrow u (Or.inl huf) w hw
        · exact hgrow u (Or.inr ⟨hu, by simp [hnot, huf]⟩) w hw

/-! ## Ways that avoid ids -/

/-- A way of at least one link to a goal, all ids in between avoiding a condition. -/
inductive Way (links : Links) (bad : String → Prop) (goal : String) : String → Prop
  | last {a : String} : links.Leads a goal → Way links bad goal a
  | step {a b : String} : links.Leads a b → ¬ bad b → Way links bad goal b → Way links bad goal a

/-- A way can be cut at the last visit of an id. -/
theorem Way.cut {bad : String → Prop} {goal a : String} (h : Way links bad goal a) (v : String) :
    Way links (fun b => b = v ∨ bad b) goal a ∨ Way links (fun b => b = v ∨ bad b) goal v := by
  induction h with
  | last h => exact Or.inl (.last h)
  | @step a b hab hb _ ih =>
    -- Either the rest of the way avoids the id, or it can be begun at the id instead.
    rcases ih with ih | ih
    · by_cases hbv : b = v
      · subst hbv
        exact Or.inr ih
      · exact Or.inl (.step hab (by simp [hbv, hb]) ih)
    · exact Or.inr ih

/-- A way that starts from an id need not come back to it. -/
theorem Way.avoid_start {bad : String → Prop} {goal a : String} (h : Way links bad goal a) :
    Way links (fun b => b = a ∨ bad b) goal a :=
  (h.cut a).elim id id

theorem Way.mono {bad bad' : String → Prop} {goal a : String} (hbad : ∀ b, bad' b → bad b)
    (h : Way links bad goal a) : Way links bad' goal a := by
  induction h with
  | last h => exact .last h
  | step hab hb _ ih => exact .step hab (mt (hbad _) hb) ih

/-- A path can still be closed if there is a way back to its start. -/
theorem closes_of_way (hclosed : links.Closed) {start v : String} {path : List String}
    (hv : v ∈ links.names) (hvs : v ≠ start)
    (hway : Way links (fun b => b = v ∨ b ∈ path ∨ b < start) start v) :
    links.closes start path v = true := by
  unfold closes
  simp only
  generalize hc : (v :: (path ++ (links.map (·.1)).filter (· < start))).filter (· ≠ start) = closed
  have hmem : ∀ b, b ∈ closed → b = v ∨ b ∈ path ∨ b < start := by
    intro b hb
    rw [← hc, List.mem_filter] at hb
    obtain ⟨hb, -⟩ := hb
    simp only [List.mem_cons, List.mem_append, List.mem_filter, decide_eq_true_eq] at hb
    exact hb.imp_right (Or.imp_right And.right)
  have hvc : v ∈ closed := by
    rw [← hc, List.mem_filter]
    exact ⟨List.mem_cons_self, by simpa using hvs⟩
  have hfuel : (links.names.filter fun u => !closed.contains u).length < links.length := by
    have hlen : links.names.length = links.length := by simp [names]
    rw [← hlen, List.length_filter_lt_length_iff_exists]
    exact ⟨v, hv, by simp [hvc]⟩
  have hafter := after_subset_reach hclosed links.length closed [v] hfuel
  -- Along the way every id is reached, since none of them is closed from the beginning.
  have key : ∀ u, Way links (fun b => b = v ∨ b ∈ path ∨ b < start) start u →
      (u ∈ [v] ∨ u ∈ links.reach links.length closed [v] ∧ u ∉ closed) →
      start ∈ links.reach links.length closed [v] := by
    intro u hu
    induction hu with
    | last h => exact fun hfrom => hafter _ hfrom _ h
    | step hab hb _ ih =>
      exact fun hfrom => ih (Or.inr ⟨hafter _ hfrom _ hab, mt (hmem _) hb⟩)
  simpa using key v hway (Or.inl (List.mem_singleton.2 rfl))

/-- From a cycle, the least id that lies on one has a way back to itself past greater ids only. -/
theorem exists_way_of_cycle {a : String} (hcycle : Relation.TransGen links.Leads a a) :
    ∃ start ∈ links.names, Way links (fun b => b ∈ [start] ∨ b < start) start start := by
  classical
  -- The least of all ids on cycles. No id on its cycle is less, so the way needs no such id.
  let onCycle := links.names.toFinset.filter fun b => Relation.TransGen links.Leads b b
  have hmem : ∀ {b c}, links.Leads b c → Relation.TransGen links.Leads b b → b ∈ onCycle := by
    intro b c hbc hb
    simp [onCycle, mem_names_of_leads hbc, hb]
  obtain ⟨c, hac, -⟩ := Relation.TransGen.head'_iff.1 hcycle
  obtain ⟨start, hstart, hleast⟩ := onCycle.exists_min_image id ⟨a, hmem hac hcycle⟩
  simp only [onCycle, Finset.mem_filter, List.mem_toFinset, id_eq] at hstart hleast
  refine ⟨start, hstart.1, ?_⟩
  have hway : ∀ b, Relation.ReflTransGen links.Leads start b →
      Relation.TransGen links.Leads b start → Way links (fun b => b < start) start b := by
    intro b hreach hback
    induction hback using Relation.TransGen.head_induction_on with
    | single hlast => exact .last hlast
    | @head b c hbc hback ih =>
      have hreach' := hreach.tail hbc
      refine .step hbc ?_ (ih hreach')
      obtain ⟨d, hcd, -⟩ := Relation.TransGen.head'_iff.1 hback
      exact not_lt.2 (hleast c ⟨mem_names_of_leads hcd, hback.trans_left hreach'⟩)
  exact (hway start Relation.ReflTransGen.refl hstart.2).avoid_start.mono (by simp)

end Links

end Workgraph
