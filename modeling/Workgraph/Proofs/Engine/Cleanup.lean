import Workgraph.Proofs.Engine.Instant
import Workgraph.Proofs.Engine.Moves
/-!
# Nothing is left running

A fiber that does not wait for branches, and does not clear any away, has nothing running under it
(`Schedule.Family.ended_below`). A fiber that has ended stays so (`Instant.Orderly.ended_iterate`), and the world is
changed by nothing but the resumption of a fiber that goes on (`Schedule.world_happens`). So once a
fork is over nothing that was started by it, directly or not, does anything any more.
-/

namespace Workgraph

/-- Whether a fiber is in the midst of a fork: it waits for the branches, or clears them away. -/
def FiberState.isForking : FiberState → Bool
  | .joining .. | .clearing .. | .queued (.clear ..) => true
  | _ => false

namespace Schedule

variable {pending : List Event} {s s' : Schedule} {i j p : Nat}
variable {env : Surroundings} {transport : Transport}

/-! ## Above and below -/

/-- Two fibers above a third are above each other. -/
theorem under_total {a b m : Nat} (ha : s.Under a m) (hb : s.Under b m) :
    s.Under a b ∨ s.Under b a := by
  induction ha with
  | refl => exact Or.inr hb
  | @tail k m hak hkm ih =>
    rcases Relation.ReflTransGen.cases_tail hb with heq | ⟨k', hbk, hk'⟩
    · subst heq
      exact Or.inl (hak.tail hkm)
    · rw [hkm] at hk'
      cases hk'
      exact ih hbk

/-- All fibers are under the fiber of the run. -/
theorem Family.under_main (h : Family pending s) : ∀ i, i < s.fibers.size → s.Under main i := by
  intro i
  induction i using Nat.strongRecOn with
  | _ i ih =>
    intro hi
    by_cases hmain : i = main
    · subst hmain
      exact Relation.ReflTransGen.refl
    · obtain ⟨p, hp⟩ := h.rooted i hi hmain
      have hlt := h.older i p hp
      exact (ih p hlt (by omega)).tail hp

/-- Nothing goes on under a fiber that has ended. -/
theorem Family.ended_under (h : Family pending s) (hi : s.hasEnded i = true)
    (hij : s.Under i j) : s.hasEnded j = true := by
  induction hij with
  | refl => exact hi
  | tail _ hstep ih =>
    obtain ⟨e, he⟩ := hasEnded_iff.1 ih
    exact h.keeps _ _ he _ hstep

/-- Two children of one fiber have nothing under them in common. -/
theorem Family.eq_of_common (h : Family pending s) {a b m : Nat} (ha : s.parent? a = some p)
    (hb : s.parent? b = some p) (ham : s.Under a m) (hbm : s.Under b m) : a = b := by
  have key : ∀ {a b}, s.parent? a = some p → s.parent? b = some p → s.Under a b → a = b := by
    intro a b ha hb hab
    rcases Relation.ReflTransGen.cases_tail hab with heq | ⟨k, hak, hk⟩
    · exact heq.symm
    · rw [hb] at hk
      cases hk
      have hle := h.under_le hak
      have hlt := h.older a _ ha
      omega
  rcases under_total ham hbm with hab | hba
  · exact key ha hb hab
  · exact (key hb ha hba).symm

theorem Family.not_under (h : Family pending s) (hji : s.Under j i) (hne : j ≠ i) :
    ¬ s.Under i j := by
  intro hij
  have hle := h.under_le hji
  have hge := h.under_le hij
  omega

/-- A fiber above a live one waits for that one of its children that is above it. -/
theorem Family.exists_live_child (h : Family pending s) (hlive : s.hasEnded i = false)
    (hji : s.Under j i) (hne : j ≠ i) :
    ∃ c, s.parent? c = some j ∧ s.Under c i ∧ s.hasEnded c = false := by
  rcases Relation.ReflTransGen.cases_head hji with heq | ⟨c, hc, hci⟩
  · exact absurd heq hne
  · refine ⟨c, hc, hci, ?_⟩
    rw [← Bool.not_eq_true]
    intro hended
    rw [h.ended_under hended hci] at hlive
    cases hlive

/-! ## Ends -/

/-- The children of a fiber that is not in the midst of a fork have ended. -/
theorem Family.children_ended (h : Family pending s) {st : FiberState} (hst : s.state? i = some st)
    (hnot : st.isForking = false) : ∀ c, s.parent? c = some i → s.hasEnded c = true := by
  have hkeeps := h.keeps i st hst
  cases st with
  | queued r =>
    cases r with
    | go cs next => exact (hkeeps.1.all_settled hkeeps.2).all_ended
    | clear cs e => cases hnot
    | stop e => exact hkeeps
  | asleep next => exact Kids.all_ended hkeeps
  | joining cs left next => cases hnot
  | clearing cs left e told => cases hnot
  | ended e => exact hkeeps

/-- **Nothing runs under a fiber that is not in the midst of a fork.** -/
theorem Family.ended_below (h : Family pending s) {st : FiberState} (hst : s.state? i = some st)
    (hnot : st.isForking = false) (hij : s.Under i j) (hne : j ≠ i) : s.hasEnded j = true := by
  rcases Relation.ReflTransGen.cases_head hij with heq | ⟨c, hc, hcj⟩
  · exact absurd heq.symm hne
  · exact h.ended_under (h.children_ended hst hnot c hc) hcj

theorem ending_ne_of_state {st : FiberState} (hst : s.state? j = some st) {e : Ending}
    (hi : s.state? i = some (.ended e)) (hlive : ∀ e, st ≠ .ended e) : i ≠ j := by
  rintro rfl
  rw [hi] at hst
  cases hst
  exact hlive e rfl

/-- **A fiber that has ended stays so.** -/
theorem ended_happens {event : Event} (hfamily : Family (event :: pending) s)
    (hstep : Happens env transport s event s') {e : Ending} (hi : s.state? i = some (.ended e)) :
    s'.state? i = some (.ended e) := by
  have hparent : ∀ {i}, s.parent? i ≠ some i := fun {i} => hfamily.parent_ne i
  cases hstep with
  | @stops j r last hstate hend =>
    have hij := ending_ne_of_state hstate hi (by simp)
    rw [state?_finish_of_ne (by simpa using hparent) hij, state?_setCancelled, hi]
  | @clears j r cs last hstate hend =>
    have hij := ending_ne_of_state hstate hi (by simp)
    have hnudges := hfamily.linked.nudges_clear j cs
    -- Telling the children to stop ends none of them, and restarts none.
    have hsame := hnudges.ending?_eq i
    rw [clear_eq, state?_setState_of_ne hij]
    apply ending?_eq_some_iff.1
    refine hsame.trans ?_
    apply ending?_eq_some_iff.2
    rw [state?_setCancelled, hi]
  | @ends j cs next w last hstate htold hrun =>
    have hij := ending_ne_of_state hstate hi (by simp)
    rw [state?_finish_of_ne (by simpa using hparent) hij, state?_setWorld, state?_setCancelled, hi]
  | @sleeps j cs next next' w seconds hstate htold hrun =>
    have hij := ending_ne_of_state hstate hi (by simp)
    rw [state?_setState_of_ne hij, state?_setTimer, state?_setWorld, state?_setCancelled, hi]
  | @forks j cs next next' w branches hstate htold hrun =>
    have hij := ending_ne_of_state hstate hi (by simp)
    have hsize : i < ((s.setCancelled j false).setWorld w).fibers.size := by
      simpa using lt_size_of_state? hi
    rw [state?_fork_old hsize hij, state?_setWorld, state?_setCancelled, hi]
  | @wakes j next hstate =>
    rw [state?_enqueue_of_ne (ending_ne_of_state hstate hi (by simp)), hi]
  | @joins c p context cs left next hchild hparent' hstate hleft =>
    rw [state?_enqueue_of_ne (ending_ne_of_state hstate hi (by simp)), hi]
  | @counts c p context cs left next hchild hparent' hstate hleft =>
    rw [state?_setState_of_ne (ending_ne_of_state hstate hi (by simp)), hi]
  | @breaks c p last cs left next hchild hfailed hparent' hstate =>
    rw [state?_enqueue_of_ne (ending_ne_of_state hstate hi (by simp)), hi]
  | @cleared c p last last' cs left told hchild hparent' hstate hleft =>
    rw [state?_enqueue_of_ne (ending_ne_of_state hstate hi (by simp)), hi]
  | @discounts c p last last' cs left told hchild hparent' hstate hleft =>
    rw [state?_setState_of_ne (ending_ne_of_state hstate hi (by simp)), hi]
  | expires => exact hi
  | cuts =>
    have hnudges := nudges_cancel s.fibers.size main s hfamily.linked
    apply ending?_eq_some_iff.1
    rw [hnudges.ending?_eq]
    exact ending?_eq_some_iff.2 hi
  | nothing hidle => exact hi

/-- A fiber goes on: it is resumed, and has not been told to stop. -/
structure GoesOn (s : Schedule) (event : Event) (i : Nat) (p : Process) : Prop where
  resumed : event = .resume i
  ready : ∃ cs next, s.state? i = some (.queued (.go cs next)) ∧ p = next ()
  free : s.isTold i = false

/-- **The world is changed by fibers that go on**, and as their processes do. -/
theorem world_happens {event : Event} (hfamily : Family (event :: pending) s)
    (hstep : Happens env transport s event s') :
    s'.world = s.world ∨ ∃ i p, GoesOn s event i p ∧
      s'.world = (p.advance env transport s.world).1 := by
  have hparent : ∀ {i}, s.parent? i ≠ some i := fun {i} => hfamily.parent_ne i
  cases hstep with
  | stops hstate hend =>
    refine Or.inl ?_
    rw [world_finish (by simpa using hparent), world_setCancelled]
  | @clears j r cs last hstate hend =>
    refine Or.inl ?_
    rw [clear_eq]
    exact (hfamily.linked.nudges_clear j cs).world_eq
  | @ends j cs next w last hstate htold hrun =>
    refine Or.inr ⟨j, next (), ⟨rfl, ⟨cs, next, hstate, rfl⟩, htold⟩, ?_⟩
    rw [world_finish (by simpa using hparent), world_setWorld, hrun]
  | @sleeps j cs next next' w seconds hstate htold hrun =>
    refine Or.inr ⟨j, next (), ⟨rfl, ⟨cs, next, hstate, rfl⟩, htold⟩, ?_⟩
    rw [hrun]
    rfl
  | @forks j cs next next' w branches hstate htold hrun =>
    refine Or.inr ⟨j, next (), ⟨rfl, ⟨cs, next, hstate, rfl⟩, htold⟩, ?_⟩
    rw [hrun]
    rfl
  | cuts => exact Or.inl (nudges_cancel s.fibers.size main s hfamily.linked).world_eq
  | _ => exact Or.inl rfl

/-- The world after a fiber has gone on. -/
theorem GoesOn.world_eq {event : Event} {p : Process} (h : GoesOn s event i p)
    (hfamily : Family (event :: pending) s) (hstep : Happens env transport s event s') :
    s'.world = (p.advance env transport s.world).1 := by
  obtain ⟨rfl, ⟨cs, next, hstate, rfl⟩, hfree⟩ := h
  have hparent : s.parent? i ≠ some i := hfamily.parent_ne i
  cases hstep with
  | @stops i r e hold hend =>
    rw [hstate] at hold
    cases hold
    rcases hend with ⟨next', htold, -⟩ | ⟨last, hr, -⟩
    · rw [hfree] at htold
      cases htold
    · cases hr
  | @clears i r cs' e hold hend =>
    rw [hstate] at hold
    cases hold
    rcases hend with ⟨next', htold, -⟩ | ⟨last, hr, -⟩
    · rw [hfree] at htold
      cases htold
    · cases hr
  | @ends i cs' next' w e hold htold hrun =>
    rw [hstate] at hold
    cases hold
    rw [world_finish (by simpa using hparent), world_setWorld, hrun]
  | @sleeps i cs' next' next'' w seconds hold htold hrun =>
    rw [hstate] at hold
    cases hold
    rw [hrun]
    rfl
  | @forks i cs' next' next'' w branches hold htold hrun =>
    rw [hstate] at hold
    cases hold
    rw [hrun]
    rfl
  | nothing hidle => exact absurd hstate (hidle _)

theorem GoesOn.not_ended {event : Event} {p : Process} (h : GoesOn s event i p) :
    s.hasEnded i = false := by
  obtain ⟨-, ⟨cs, next, hstate, -⟩, -⟩ := h
  exact not_hasEnded_of_state hstate (by simp)

end Schedule

namespace Instant

variable {x : Instant} {i : Nat}

theorem Orderly.iterate (h : x.Orderly) (env : Surroundings) (transport : Transport) (n : Nat) :
    ((Instant.next env transport)^[n] x).Orderly := by
  induction n with
  | zero => exact h
  | succ n ih =>
    rw [Function.iterate_succ_apply']
    exact ih.next

section
variable {env : Surroundings} {transport : Transport}

theorem Orderly.reached {s : Schedule} (h : (before s).Orderly) (hx : Reached env transport s x) :
    x.Orderly := by
  obtain ⟨n, rfl⟩ := hx
  exact h.iterate env transport n

theorem Orderly.ended_next (h : x.Orderly) {e : Ending}
    (hi : x.schedule.state? i = some (.ended e)) :
    (x.next env transport).schedule.state? i = some (.ended e) := by
  obtain ⟨batch, s⟩ := x
  cases batch with
  | nil => exact hi
  | cons event rest =>
    exact Schedule.ended_happens h.family (Schedule.happens_handle event) hi

/-- A fiber that has ended has ended in the same way at every later instant. -/
theorem Orderly.ended_iterate (h : x.Orderly) {e : Ending}
    (hi : x.schedule.state? i = some (.ended e)) (n : Nat) :
    ((Instant.next env transport)^[n] x).schedule.state? i = some (.ended e) := by
  induction n with
  | zero => exact hi
  | succ n ih =>
    rw [Function.iterate_succ_apply']
    exact (h.iterate env transport n).ended_next ih

/-- The process with which a fiber goes on in the next step. -/
def GoesOn (x : Instant) (i : Nat) (p : Process) : Prop :=
  ∃ event, x.batch.head? = some event ∧ x.schedule.GoesOn event i p

theorem GoesOn.not_ended {p : Process} (h : x.GoesOn i p) : x.schedule.hasEnded i = false := by
  obtain ⟨event, -, hgoes⟩ := h
  exact hgoes.not_ended

/-- A step leaves the world, or it is that of a fiber that goes on. -/
theorem Orderly.world_next (h : x.Orderly) :
    (x.next env transport).schedule.world = x.schedule.world ∨ ∃ i p, x.GoesOn i p ∧
      (x.next env transport).schedule.world = (p.advance env transport x.schedule.world).1 := by
  obtain ⟨batch, s⟩ := x
  cases batch with
  | nil => exact Or.inl rfl
  | cons event rest =>
    rcases Schedule.world_happens h.family (Schedule.happens_handle event) with hsame | ⟨i, p, hgoes, hworld⟩
    · exact Or.inl hsame
    · exact Or.inr ⟨i, p, ⟨event, rfl, hgoes⟩, hworld⟩

/-- The trace only grows. -/
theorem Orderly.grows_next (h : x.Orderly) :
    x.schedule.world.Grows (x.next env transport).schedule.world := by
  rcases h.world_next with hsame | ⟨i, p, -, hworld⟩
  · rw [hsame]
    exact World.Grows.refl _
  · obtain ⟨q, -, hruns⟩ := p.runs_advance env transport x.schedule.world
    rw [hworld]
    exact hruns.grows

theorem Orderly.grows_iterate (h : x.Orderly) (n : Nat) :
    x.schedule.world.Grows ((Instant.next env transport)^[n] x).schedule.world := by
  induction n with
  | zero => exact World.Grows.refl _
  | succ n ih =>
    rw [Function.iterate_succ_apply']
    exact ih.trans (h.iterate env transport n).grows_next

/-- After the end of the run nothing happens to the world. -/
theorem Orderly.world_iterate (h : x.Orderly) (hover : x.schedule.isOver = true) (n : Nat) :
    ((Instant.next env transport)^[n] x).schedule.world = x.schedule.world := by
  induction n with
  | zero => rfl
  | succ n ih =>
    -- The fiber of the run has ended and stays so.
    have hthen := h.iterate env transport n
    obtain ⟨e, he⟩ := Schedule.hasEnded_iff.1 hover
    have hmain : ((Instant.next env transport)^[n] x).schedule.state? Schedule.main =
        some (.ended e) := h.ended_iterate he n
    rw [Function.iterate_succ_apply', ← ih]
    rcases hthen.world_next with hsame | ⟨i, p, hgoes, -⟩
    · exact hsame
    · -- Whatever goes on is under the fiber of the run, and so has ended.
      obtain ⟨event, -, hgoes'⟩ := id hgoes
      obtain ⟨-, ⟨cs, next, hstate, -⟩, -⟩ := hgoes'
      have hunder := hthen.family.under_main i (Schedule.lt_size_of_state? hstate)
      have hended := hthen.family.ended_under (Schedule.hasEnded_of_state hmain) hunder
      rw [hgoes.not_ended] at hended
      cases hended

/-- Whatever is reached before or after the end of a run, the trace at the end continues its trace.
-/
theorem Orderly.grows_end {s : Schedule} {y : Instant} (h : (before s).Orderly)
    (hx : Reached env transport s x) (hy : Reached env transport s y)
    (hover : y.schedule.isOver = true) : x.schedule.world.Grows y.schedule.world := by
  have hxo := h.reached hx
  have hyo := h.reached hy
  obtain ⟨m, rfl⟩ := hx
  obtain ⟨n, rfl⟩ := hy
  -- Before the end the trace grows, and after it nothing happens.
  rcases Nat.le_total m n with hle | hle
  · obtain ⟨k, rfl⟩ := Nat.exists_eq_add_of_le' hle
    rw [Function.iterate_add_apply]
    exact hxo.grows_iterate k
  · obtain ⟨k, rfl⟩ := Nat.exists_eq_add_of_le' hle
    rw [Function.iterate_add_apply, hyo.world_iterate hover k]
    exact World.Grows.refl _

end

end Instant

end Workgraph
