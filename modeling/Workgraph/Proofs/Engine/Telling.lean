import Mathlib.Logic.Relation
import Workgraph.Proofs.Engine.Happening
/-!
# What telling fibers to stop can do

Telling a fiber to stop goes down to the fibers that run for it. Whatever the order, it comes to
single changes (`Nudge`): a fiber that has not ended is marked, a sleeping fiber is resumed in order
to end, and a fiber that clears its children away will end as cancelled. Only fibers under the one
that is told are changed, and none of them ends by it.
-/

namespace Workgraph

namespace FiberState

/-- The children for which a fiber waits, or has just waited. -/
def children : FiberState → List Nat
  | .queued (.go cs _) | .queued (.clear cs _) | .joining cs _ _ | .clearing cs _ _ _ => cs
  | _ => []

end FiberState

namespace Schedule

variable {s s' : Schedule} {i j : Nat}

/-- The second fiber is the first one or was started under it. -/
def Under (s : Schedule) (i j : Nat) : Prop :=
  Relation.ReflTransGen (fun a b => s.parent? b = some a) i j

/-- A fiber waits for its own children only. -/
def Linked (s : Schedule) : Prop :=
  ∀ i st, s.state? i = some st → ∀ c ∈ st.children, s.parent? c = some i

/-- A single change of a fiber that is told to stop. -/
inductive Nudge (i : Nat) (s : Schedule) : Schedule → Prop where
  | flag (hlive : s.ending? i = none) : Nudge i s (s.setCancelled i true)
  | wake {next : Unit → Process} (hstate : s.state? i = some (.asleep next)) :
      Nudge i s ((s.dropTimer (.ring i)).enqueue i (.stop .cancelled))
  | mark {cs : List Nat} {left : Nat} {e : Ending} {told : Bool}
      (hstate : s.state? i = some (.clearing cs left e told)) :
      Nudge i s (s.setState i (.clearing cs left e true))

/-- Changes of fibers of a set that are told to stop, one after another. -/
def Nudges (P : Nat → Prop) : Schedule → Schedule → Prop :=
  Relation.ReflTransGen fun s s' => ∃ i, P i ∧ Nudge i s s'

namespace Nudge

theorem parent?_eq (h : Nudge i s s') (j : Nat) : s'.parent? j = s.parent? j := by
  cases h with
  | flag hlive => simp
  | wake hstate => simp
  | mark hstate => simp

theorem size_eq (h : Nudge i s s') : s'.fibers.size = s.fibers.size := by
  cases h with
  | flag hlive => simp
  | wake hstate => simp
  | mark hstate => simp

theorem world_eq (h : Nudge i s s') : s'.world = s.world := by
  cases h <;> rfl

theorem clock_eq (h : Nudge i s s') : s'.clock = s.clock := by
  cases h <;> rfl

theorem fiber_eq (h : Nudge i s s') (hne : j ≠ i) : s'.fibers[j]? = s.fibers[j]? := by
  cases h with
  | flag hlive => rw [fibers_setCancelled, if_neg hne.symm]
  | wake hstate => exact (fibers_setState _).trans (if_neg hne.symm)
  | mark hstate => rw [fibers_setState, if_neg hne.symm]

theorem state?_eq (h : Nudge i s s') (hne : j ≠ i) : s'.state? j = s.state? j := by
  simp only [state?, h.fiber_eq hne]

/-- What a change makes of the state of the fiber: nothing, or it resumes a sleeping one in order to
end, or it marks one that clears its children away. -/
theorem state?_cases (h : Nudge i s s') :
    (s'.state? i = s.state? i) ∨
      (∃ next, s.state? i = some (.asleep next) ∧
        s'.state? i = some (.queued (.stop .cancelled))) ∨
      ∃ cs left e told, s.state? i = some (.clearing cs left e told) ∧
        s'.state? i = some (.clearing cs left e true) := by
  cases h with
  | flag hlive => exact Or.inl (state?_setCancelled true)
  | wake hstate => exact Or.inr (Or.inl ⟨_, hstate, by simp [hstate]⟩)
  | mark hstate => exact Or.inr (Or.inr ⟨_, _, _, _, hstate, by simp [hstate]⟩)

theorem ending?_eq (h : Nudge i s s') (j : Nat) : s'.ending? j = s.ending? j := by
  by_cases hj : j = i
  · subst hj
    rcases h.state?_cases with hsame | ⟨next, hold, hnew⟩ | ⟨cs, left, e, told, hold, hnew⟩
    · exact ending?_congr hsame
    · simp [ending?, hold, hnew]
    · simp [ending?, hold, hnew]
  · exact ending?_congr (h.state?_eq hj)

/-- The queue only gets further resumptions. -/
theorem queue_eq (h : Nudge i s s') :
    ∃ js : List Nat, s'.queue.toList = s.queue.toList ++ js.map Event.resume := by
  cases h with
  | flag hlive => exact ⟨[], by simp⟩
  | wake hstate => exact ⟨[i], by simp⟩
  | mark hstate => exact ⟨[], by simp⟩

theorem under_iff (h : Nudge i s s') (a b : Nat) : s'.Under a b ↔ s.Under a b := by
  simp only [Under, h.parent?_eq]

/-- A fiber that clears its children away goes on doing so. -/
theorem clearing (h : Nudge i s s') {cs : List Nat} {left : Nat} {e : Ending} {told : Bool}
    (hj : s.state? j = some (.clearing cs left e told)) :
    ∃ told', s'.state? j = some (.clearing cs left e told') := by
  by_cases hji : j = i
  · subst hji
    rcases h.state?_cases with hsame | ⟨next, hold, -⟩ | ⟨cs', left', e', told', hold, hnew⟩
    · exact ⟨told, hsame ▸ hj⟩
    · rw [hj] at hold
      cases hold
    · rw [hj] at hold
      cases hold
      exact ⟨true, hnew⟩
  · exact ⟨told, h.state?_eq hji ▸ hj⟩

theorem linked (h : Nudge i s s') (hs : s.Linked) : s'.Linked := by
  intro j st hst c hc
  rw [h.parent?_eq]
  by_cases hj : j = i
  · subst hj
    rcases h.state?_cases with hsame | ⟨next, hold, hnew⟩ | ⟨cs, left, e, told, hold, hnew⟩
    · exact hs j st (hsame ▸ hst) c hc
    · rw [hnew] at hst
      cases hst
      simp [FiberState.children] at hc
    · rw [hnew] at hst
      cases hst
      exact hs j _ hold c hc
  · exact hs j st (h.state?_eq hj ▸ hst) c hc

end Nudge

namespace Nudges

variable {P Q : Nat → Prop}

theorem refl (P : Nat → Prop) (s : Schedule) : Nudges P s s := Relation.ReflTransGen.refl

theorem single (hi : P i) (h : Nudge i s s') : Nudges P s s' :=
  Relation.ReflTransGen.single ⟨i, hi, h⟩

theorem trans {s'' : Schedule} (h : Nudges P s s') (h' : Nudges P s' s'') : Nudges P s s'' :=
  Relation.ReflTransGen.trans h h'

theorem mono (hPQ : ∀ i, P i → Q i) (h : Nudges P s s') : Nudges Q s s' :=
  Relation.ReflTransGen.mono (fun _ _ ⟨i, hi, hn⟩ => ⟨i, hPQ i hi, hn⟩) _ _ h

/-- What each single change keeps, all of them together keep. -/
theorem keeps {K : Schedule → Prop} (hkeep : ∀ {i s s'}, P i → Nudge i s s' → K s → K s')
    (h : Nudges P s s') (hs : K s) : K s' := by
  induction h with
  | refl => exact hs
  | tail _ hstep ih =>
    obtain ⟨i, hi, hn⟩ := hstep
    exact hkeep hi hn ih

theorem parent?_eq (h : Nudges P s s') (j : Nat) : s'.parent? j = s.parent? j :=
  h.keeps (K := fun t => t.parent? j = s.parent? j) (fun _ hn ht => (hn.parent?_eq j).trans ht) rfl

theorem size_eq (h : Nudges P s s') : s'.fibers.size = s.fibers.size :=
  h.keeps (K := fun t => t.fibers.size = s.fibers.size) (fun _ hn ht => hn.size_eq.trans ht) rfl

theorem world_eq (h : Nudges P s s') : s'.world = s.world :=
  h.keeps (K := fun t => t.world = s.world) (fun _ hn ht => hn.world_eq.trans ht) rfl

theorem clock_eq (h : Nudges P s s') : s'.clock = s.clock :=
  h.keeps (K := fun t => t.clock = s.clock) (fun _ hn ht => hn.clock_eq.trans ht) rfl

theorem ending?_eq (h : Nudges P s s') (j : Nat) : s'.ending? j = s.ending? j :=
  h.keeps (K := fun t => t.ending? j = s.ending? j) (fun _ hn ht => (hn.ending?_eq j).trans ht) rfl

theorem fiber_eq (h : Nudges P s s') (hj : ¬ P j) : s'.fibers[j]? = s.fibers[j]? := by
  refine h.keeps (K := fun t => t.fibers[j]? = s.fibers[j]?) (fun {i _ _} hi hn ht => ?_) rfl
  have hne : j ≠ i := by
    rintro rfl
    exact hj hi
  exact (hn.fiber_eq hne).trans ht

theorem queue_eq (h : Nudges P s s') :
    ∃ js : List Nat, s'.queue.toList = s.queue.toList ++ js.map Event.resume := by
  induction h with
  | refl => exact ⟨[], by simp⟩
  | tail _ hstep ih =>
    obtain ⟨i, -, hn⟩ := hstep
    obtain ⟨js, hjs⟩ := ih
    obtain ⟨ks, hks⟩ := hn.queue_eq
    exact ⟨js ++ ks, by simp [hks, hjs]⟩

theorem under_iff (h : Nudges P s s') (a b : Nat) : s'.Under a b ↔ s.Under a b := by
  simp only [Under, h.parent?_eq]

theorem clearing (h : Nudges P s s') {cs : List Nat} {left : Nat} {e : Ending} {told : Bool}
    (hj : s.state? j = some (.clearing cs left e told)) :
    ∃ told', s'.state? j = some (.clearing cs left e told') := by
  refine h.keeps (K := fun t => ∃ told', t.state? j = some (.clearing cs left e told')) ?_ ⟨told, hj⟩
  rintro i s s' - hn ⟨told', hold⟩
  exact hn.clearing hold

theorem linked (h : Nudges P s s') (hs : s.Linked) : s'.Linked :=
  h.keeps (fun _ hn ht => hn.linked ht) hs

end Nudges

/-! ## Telling a fiber to stop -/

theorem Under.child {c : Nat} (h : s.parent? c = some i) (hj : s.Under c j) : s.Under i j :=
  Relation.ReflTransGen.head h hj

/-- Telling one fiber after another to stop changes what each of them changes. -/
theorem nudges_foldl {P : Nat → Prop} {tell : Nat → Schedule → Bool × Schedule}
    (htell : ∀ c s, s.Linked → Nudges (s.Under c) s (tell c s).2) (cs : List Nat) :
    ∀ (running : Bool) (s : Schedule), s.Linked → (∀ c ∈ cs, ∀ j, s.Under c j → P j) →
      Nudges P s (cs.foldl (fun acc c => (acc.1 || (tell c acc.2).1, (tell c acc.2).2))
        (running, s)).2 := by
  induction cs with
  | nil => intro running s _ _; exact Nudges.refl P s
  | cons c rest ih =>
    intro running s hs hP
    -- What is under a fiber does not change, so the rest may be told in the schedule that follows.
    have hfirst := htell c s hs
    rw [List.foldl_cons]
    refine Nudges.trans (hfirst.mono (hP c List.mem_cons_self)) (ih _ _ (hfirst.linked hs) ?_)
    intro d hd j hj
    exact hP d (List.mem_cons_of_mem c hd) j ((hfirst.under_iff d j).1 hj)

/-- Telling a fiber to stop changes fibers under it only. -/
theorem nudges_cancel (depth : Nat) :
    ∀ (i : Nat) (s : Schedule), s.Linked → Nudges (s.Under i) s (cancel depth i s).2 := by
  induction depth with
  | zero => intro i s _; exact Nudges.refl _ s
  | succ depth ih =>
    intro i s hs
    have hself : s.Under i i := Relation.ReflTransGen.refl
    -- Its children are told first; all that is under them is under the fiber.
    have hall : ∀ cs : List Nat, (∀ c ∈ cs, s.parent? c = some i) →
        Nudges (s.Under i) s (cs.foldl (fun acc c =>
          (acc.1 || (cancel depth c acc.2).1, (cancel depth c acc.2).2)) (false, s)).2 := by
      intro cs hcs
      exact nudges_foldl ih cs false s hs fun c hc j hj => Under.child (hcs c hc) hj
    have hlive : ∀ {s' : Schedule} {st : FiberState}, s'.state? i = some st →
        (∀ e, st ≠ .ended e) → s'.ending? i = none := by
      intro s' st hstate hst
      unfold ending?
      rw [hstate]
      split
      · rename_i e he
        cases he
        exact absurd rfl (hst e)
      · rfl
    simp only [cancel]
    split
    · exact Nudges.refl _ s
    · exact Nudges.refl _ s
    · rename_i r hstate
      exact Nudges.single hself (.flag (hlive hstate (by simp)))
    · rename_i next hstate
      exact Nudges.single hself (.wake hstate)
    · rename_i cs left next hstate
      have htold := hall cs (hs i _ hstate)
      split
      · exact htold
      -- No child has been told, so the fiber itself is. None of them has ended it meanwhile.
      · refine Nudges.trans htold (Nudges.single hself (.flag ?_))
        rw [htold.ending?_eq, hlive hstate (by simp)]
    · rename_i cs left e told hstate
      have htold := hall cs (hs i _ hstate)
      split
      · obtain ⟨told', hstill⟩ := htold.clearing hstate
        exact Nudges.trans htold (Nudges.single hself (.mark hstill))
      · refine Nudges.trans htold (Nudges.single hself (.flag ?_))
        rw [htold.ending?_eq, hlive hstate (by simp)]

theorem nudges_cancelAll (cs : List Nat) {P : Nat → Prop} :
    ∀ s : Schedule, s.Linked → (∀ c ∈ cs, ∀ j, s.Under c j → P j) →
      Nudges P s (s.cancelAll cs) := by
  unfold cancelAll
  induction cs with
  | nil => intro s _ _; exact Nudges.refl P s
  | cons c rest ih =>
    intro s hs hP
    have hfirst := nudges_cancel s.fibers.size c s hs
    rw [List.foldl_cons]
    refine Nudges.trans (hfirst.mono (hP c List.mem_cons_self)) (ih _ (hfirst.linked hs) ?_)
    intro d hd j hj
    exact hP d (List.mem_cons_of_mem c hd) j ((hfirst.under_iff d j).1 hj)

theorem Linked.setCancelled (h : s.Linked) (told : Bool) : (s.setCancelled i told).Linked := by
  intro p st hst c hc
  rw [parent?_setCancelled]
  exact h p st (by simpa using hst) c hc

/-- What a fiber does that clears children away as soon as it is resumed. -/
theorem Linked.nudges_clear (h : s.Linked) (i : Nat) (cs : List Nat) :
    Nudges (fun _ => True) (s.setCancelled i false) ((s.setCancelled i false).cancelAll cs) :=
  nudges_cancelAll cs _ (h.setCancelled false) fun _ _ _ _ => True.intro

end Schedule

end Workgraph
