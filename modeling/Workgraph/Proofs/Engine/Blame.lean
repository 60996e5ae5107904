import Workgraph.Proofs.Engine.Cleanup
import Workgraph.Proofs.Engine.Parts
/-!
# Where faults come from

Every fault with which a fiber ends comes up in a process that goes on, in the world of that moment.
What holds of all faults that may come up there, given the nodes that have been visited by then,
therefore holds of the fault with which a run fails (`Instant.blamed_reached`). In particular it is
the failure of what some visited node does by itself (`Graph.Blames`).
-/

namespace Workgraph

/-- The nodes have been visited. -/
def World.HasVisited (w : World) (ids : List String) : Prop :=
  ∀ id ∈ ids, ∃ t ∈ w.trace.toList, t.nodeId = id

theorem World.HasVisited.grows {w w' : World} {ids : List String} (h : w.HasVisited ids)
    (hgrows : w.Grows w') : w'.HasVisited ids := by
  intro id hid
  obtain ⟨t, ht, hnode⟩ := h id hid
  exact ⟨t, hgrows.subset ht, hnode⟩

theorem World.HasVisited.enter {w : World} {ids : List String} (h : w.HasVisited ids)
    (env : Surroundings) (id type : String) : (w.enter env id type).HasVisited (id :: ids) := by
  intro i hi
  rcases List.mem_cons.1 hi with rfl | hi
  · exact ⟨⟨i, type, env.stamp⟩, by simp [World.enter], rfl⟩
  · obtain ⟨t, ht, hnode⟩ := h i hi
    exact ⟨t, by simp [World.enter, Array.mem_toList_iff.1 ht], hnode⟩

/-- The demand that every fault that may come up, in a world in which the nodes before have been
visited, is one of that world. -/
def Demand.blame (env : Surroundings) (transport : Transport) (B : World → Fault → Prop) : Demand
    where
  fault seen f := ∀ w : World, w.HasVisited seen → B w f
  store seen r := ∀ (w : World) f repository, w.HasVisited seen →
    w.repository.perform env r.entity r.action = (.error f, repository) → B w f
  call seen r := ∀ (w : World) f, w.HasVisited seen → (transport r).outcome = .error f → B w f
  fork _ := True
  fault_mono hsub h w hw := h w fun id hid => hw id (hsub hid)
  store_mono hsub h w f repository hw := h w f repository fun id hid => hw id (hsub hid)
  call_mono hsub h w f hw := h w f fun id hid => hw id (hsub hid)

/-! ## Processes -/

/-- What holds of the processes and of the fault that are left where a process comes to a halt. -/
inductive Pause.Holds (P : Process → Prop) (Q : Fault → Prop) : Pause → Prop where
  | finished {context : Context} : Holds P Q (.ended (.finished context))
  | failed {f : Fault} (hf : Q f) : Holds P Q (.ended (.failed f))
  | asleep {seconds : Binary64} {next : Unit → Process} (hnext : P (next ())) :
      Holds P Q (.asleep seconds next)
  | forked {branches : List Process} {next : Unit → Process} (hbranches : ∀ b ∈ branches, P b)
      (hnext : P (next ())) : Holds P Q (.forked branches next)

theorem Pause.Holds.mono {P : Process → Prop} {Q Q' : Fault → Prop} {pause : Pause}
    (h : pause.Holds P Q) (hQ : ∀ f, Q f → Q' f) : pause.Holds P Q' := by
  cases h with
  | finished => exact .finished
  | failed hf => exact .failed (hQ _ hf)
  | asleep hnext => exact .asleep hnext
  | forked hbranches hnext => exact .forked hbranches hnext

section
variable {env : Surroundings} {transport : Transport} {B : World → Fault → Prop}

/-- The faults that may still come up in a process are those of the worlds in which they do. -/
def Process.IsBlamed (env : Surroundings) (transport : Transport) (B : World → Fault → Prop)
    (w : World) (p : Process) : Prop :=
  ∃ seen, w.HasVisited seen ∧ p.Meets (Demand.blame env transport B) seen

theorem Process.IsBlamed.grows {w w' : World} {p : Process}
    (h : p.IsBlamed env transport B w) (hgrows : w.Grows w') : p.IsBlamed env transport B w' := by
  obtain ⟨seen, hseen, hmeets⟩ := h
  exact ⟨seen, hseen.grows hgrows, hmeets⟩

/-- A process comes to another one, and its world to another one, without a halt. -/
inductive Process.Passes (env : Surroundings) (transport : Transport) :
    World × Process → World × Process → Prop where
  | here {x : World × Process} : Passes env transport x x
  | visit {id type : String} {next : Unit → Process} {w : World} {y : World × Process}
      (hnext : Passes env transport (w.enter env id type, next ()) y) :
      Passes env transport (w, .visit id type next) y
  | warn {words : String} {next : Unit → Process} {w : World} {y : World × Process}
      (hnext : Passes env transport (w.notify .warning words, next ()) y) :
      Passes env transport (w, .warn words next) y
  | answer {request : StoreRequest} {next : Value → Process} {w : World} {v : Value}
      {repository : Repository} {y : World × Process}
      (hperform : w.repository.perform env request.entity request.action = (.ok v, repository))
      (hnext : Passes env transport ({ w with repository }, next v) y) :
      Passes env transport (w, .store request next) y
  | call {request : CallRequest} {next : CallAnswer → Process} {w : World} {answer : CallAnswer}
      {y : World × Process} (hwait : isWait (transport request).delay = false)
      (houtcome : (transport request).outcome = .ok answer)
      (hnext : Passes env transport (w.remember request, next answer) y) :
      Passes env transport (w, .call request next) y

/-- What a process passes by is on the way to where it comes to a halt. -/
theorem Process.Passes.grows {x y : World × Process} (h : Passes env transport x y) :
    y.1.Grows (x.2.advance env transport x.1).1 := by
  induction h with
  | @here x =>
    obtain ⟨q, -, hruns⟩ := x.2.runs_advance env transport x.1
    exact hruns.grows
  | visit _ ih => exact ih
  | warn _ ih => exact ih
  | answer hperform _ ih =>
    simp only [advance, hperform]
    exact ih
  | call hwait houtcome _ ih =>
    simp only [advance, hwait, Bool.false_eq_true, if_false, houtcome]
    exact ih

/-- **A fault that comes up while a process is advanced is one of the world of that moment.** -/
theorem Process.Meets.advance {seen : List String} {p : Process}
    (h : p.Meets (Demand.blame env transport B) seen) : ∀ w : World, w.HasVisited seen →
      (p.advance env transport w).2.Holds
        (Process.IsBlamed env transport B (p.advance env transport w).1)
        (fun f => ∃ w' q, Process.Passes env transport (w, p) (w', q) ∧ B w' f) := by
  induction h with
  | done =>
    intro w hw
    exact .finished
  | fail hfault =>
    intro w hw
    exact .failed ⟨w, _, .here, hfault w hw⟩
  | visit _ ih =>
    intro w hw
    refine (ih _ (hw.enter env _ _)).mono ?_
    rintro f ⟨w', q, hpasses, hB⟩
    exact ⟨w', q, .visit hpasses, hB⟩
  | warn _ ih =>
    intro w hw
    refine (ih (w.notify .warning _) hw).mono ?_
    rintro f ⟨w', q, hpasses, hB⟩
    exact ⟨w', q, .warn hpasses, hB⟩
  | store hstore hnext ih =>
    intro w hw
    simp only [Process.advance]
    split
    · rename_i v repository hperform
      refine (ih v { w with repository } hw).mono ?_
      rintro f ⟨w', q, hpasses, hB⟩
      exact ⟨w', q, .answer hperform hpasses, hB⟩
    · rename_i f repository hperform
      exact .failed ⟨w, _, .here, hstore w f repository hw hperform⟩
  | @call seen request next hcall hnext ih =>
    intro w hw
    have hw' : (w.remember request).HasVisited seen := hw
    simp only [Process.advance]
    generalize hwait : isWait (transport request).delay = waits
    cases waits with
    | true =>
      -- The answer is already known, and with it the fault that it may be.
      refine .asleep ⟨seen, hw', ?_⟩
      simp only [afterCall, Process.ofExcept]
      split
      · exact hnext _
      · rename_i f houtcome
        exact .fail fun w hw => hcall w f hw houtcome
    | false =>
      simp only [Bool.false_eq_true, if_false]
      split
      · rename_i answer houtcome
        refine (ih answer (w.remember request) hw').mono ?_
        rintro f ⟨w', q, hpasses, hB⟩
        exact ⟨w', q, .call hwait houtcome hpasses, hB⟩
      · rename_i f houtcome
        exact .failed ⟨w, _, .here, hcall w f hw houtcome⟩
  | sleep hnext _ =>
    intro w hw
    exact .asleep ⟨_, hw, hnext⟩
  | fork _ hbranches hnext _ _ =>
    intro w hw
    exact .forked (fun b hb => ⟨_, hw, hbranches b hb⟩) ⟨_, hw, hnext⟩

end

/-! ## Schedules -/

/-- What holds of the process that a fiber runs and of the fault with which it ends. -/
def FiberState.Holds (P : Process → Prop) (Q : Fault → Prop) : FiberState → Prop
  | .queued (.go _ next) | .asleep next | .joining _ _ next => P (next ())
  | .queued (.clear _ e) | .queued (.stop e) | .clearing _ _ e _ | .ended e =>
    ∀ f, e = .failed f → Q f

namespace Schedule

variable {pending : List Event} {s s' : Schedule} {i : Nat}
variable {env : Surroundings} {transport : Transport} {P P' : Process → Prop} {Q : Fault → Prop}

/-- What holds of the processes and of the faults of all fibers. -/
def Holds (P : Process → Prop) (Q : Fault → Prop) (s : Schedule) : Prop :=
  ∀ i st, s.state? i = some st → st.Holds P Q

theorem Holds.setState (h : s.Holds P Q) {st : FiberState} (hst : st.Holds P Q) :
    (s.setState i st).Holds P Q := by
  intro j st' hst'
  by_cases hji : j = i
  · subst hji
    rw [state?_setState_self] at hst'
    obtain ⟨-, -, rfl⟩ := Option.map_eq_some_iff.1 hst'
    exact hst
  · exact h j st' (state?_setState_of_ne hji st ▸ hst')

theorem Holds.nudge (h : s.Holds P Q) (hn : Nudge i s s') : s'.Holds P Q := by
  intro j st hst
  by_cases hji : j = i
  · subst hji
    rcases hn.state?_cases with hsame | ⟨next, -, hnew⟩ | ⟨cs, left, e, told, hold, hnew⟩
    · exact h j st (hsame ▸ hst)
    · rw [hnew] at hst
      cases hst
      exact fun f hf => by cases hf
    · rw [hnew] at hst
      cases hst
      have hclearing : (FiberState.clearing cs left e told).Holds P Q := h j _ hold
      exact hclearing
  · exact h j st (hn.state?_eq hji ▸ hst)

theorem Holds.nudges {R : Nat → Prop} (h : s.Holds P Q) (hn : Nudges R s s') : s'.Holds P Q :=
  hn.keeps (fun _ hstep hs => hs.nudge hstep) h

theorem Holds.mono (h : s.Holds P Q) (hP : ∀ p, P p → P' p) : s.Holds P' Q := by
  intro i st hst
  have hold := h i st hst
  cases st with
  | queued r =>
    cases r with
    | go cs next => exact hP _ hold
    | clear cs e => exact hold
    | stop e => exact hold
  | asleep next => exact hP _ hold
  | joining cs left next => exact hP _ hold
  | clearing cs left e told => exact hold
  | ended e => exact hold

theorem Holds.finish (h : s.Holds P Q) (hparent : s.parent? i ≠ some i) {e : Ending}
    (he : ∀ f, e = .failed f → Q f) : (s.finish i e).Holds P Q := by
  rw [finish_eq e hparent]
  exact h.setState he

theorem failed_of_unless {told : Bool} {e : Ending} {f : Fault} (h : e.unless told = .failed f) :
    e = .failed f := by
  cases told with
  | true => cases h
  | false => exact h

/-- **What holds of all processes and faults is kept by every event**, if the processes that go on
keep it. -/
theorem Holds.happens {event : Event} (hfamily : Family (event :: pending) s) (h : s.Holds P Q)
    (hP : ∀ p, P p → P' p)
    (hgo : ∀ i p, s.GoesOn event i p → P p → (p.advance env transport s.world).2.Holds P' Q)
    (hstep : Happens env transport s event s') : s'.Holds P' Q := by
  have hparent : ∀ {i}, s.parent? i ≠ some i := fun {i} => hfamily.parent_ne i
  have hcancelled : ∀ i, (s.setCancelled i false).Holds P' Q := by
    intro i j st hst
    exact h.mono hP j st (by simpa using hst)
  cases hstep with
  | @stops i r e hstate hend =>
    apply (hcancelled i).finish (by simpa using hparent)
    rintro f rfl
    rcases hend with ⟨next, -, -, hcancel⟩ | ⟨last, rfl, hlast⟩
    · cases hcancel
    · exact h i _ hstate f (failed_of_unless hlast.symm)
  | @clears i r cs e hstate hend =>
    -- Telling the children to stop starts no process and makes no fault.
    have hnudges := hfamily.linked.nudges_clear i cs
    rw [clear_eq]
    refine Holds.setState ((hcancelled i).nudges hnudges) ?_
    rintro f rfl
    rcases hend with ⟨next, -, -, -, hcancel⟩ | ⟨last, rfl, hlast⟩
    · cases hcancel
    · exact h i _ hstate f (failed_of_unless hlast.symm)
  | @ends i cs next w e hstate htold hrun =>
    have hne : ((s.setCancelled i false).setWorld w).parent? i ≠ some i := by simpa using hparent
    have hpause := hgo i _ ⟨rfl, ⟨cs, next, hstate, rfl⟩, htold⟩ (h i _ hstate)
    rw [hrun] at hpause
    have hworld : ((s.setCancelled i false).setWorld w).Holds P' Q := hcancelled i
    apply hworld.finish hne
    rintro f rfl
    cases hpause with
    | failed hf => exact hf
  | @sleeps i cs next next' w seconds hstate htold hrun =>
    have hpause := hgo i _ ⟨rfl, ⟨cs, next, hstate, rfl⟩, htold⟩ (h i _ hstate)
    rw [hrun] at hpause
    have hworld : (((s.setCancelled i false).setWorld w).setTimer seconds (.ring i)).Holds P' Q :=
      hcancelled i
    apply hworld.setState
    cases hpause with
    | asleep hnext => exact hnext
  | @forks i cs next next' w branches hstate htold hrun =>
    have hpause := hgo i _ ⟨rfl, ⟨cs, next, hstate, rfl⟩, htold⟩ (h i _ hstate)
    rw [hrun] at hpause
    have hi : i < ((s.setCancelled i false).setWorld w).fibers.size := by
      simpa using lt_size_of_state? hstate
    cases hpause with
    | forked hbranches hnext =>
      intro j st hst
      rcases state?_fork_cases hi hst with ⟨rfl, rfl⟩ | ⟨-, -, hold⟩ | ⟨k, hk, -, rfl⟩
      · exact hnext
      · exact hcancelled i j st hold
      · exact hbranches _ (List.getElem_mem hk)
  | @wakes i next hstate =>
    have hnext : P (next ()) := h i _ hstate
    exact (h.mono hP).setState (hP _ hnext)
  | @joins c p context cs left next hchild hparent' hstate hleft =>
    have hnext : P (next ()) := h p _ hstate
    exact (h.mono hP).setState (hP _ hnext)
  | @counts c p context cs left next hchild hparent' hstate hleft =>
    have hnext : P (next ()) := h p _ hstate
    exact (h.mono hP).setState (hP _ hnext)
  | @breaks c p e cs left next hchild hfailed hparent' hstate =>
    have hfault : ∀ f, e = .failed f → Q f := h c _ hchild
    exact (h.mono hP).setState hfault
  | @cleared c p e last cs left told hchild hparent' hstate hleft =>
    have hfault : ∀ f, last = .failed f → Q f := h p _ hstate
    refine (h.mono hP).setState ?_
    intro f hf
    exact hfault f (failed_of_unless hf)
  | @discounts c p e last cs left told hchild hparent' hstate hleft =>
    have hfault : ∀ f, last = .failed f → Q f := h p _ hstate
    exact (h.mono hP).setState hfault
  | expires => exact h.mono hP
  | cuts => exact (h.mono hP).nudges (nudges_cancel s.fibers.size main s hfamily.linked)
  | nothing hidle => exact h.mono hP

end Schedule

/-! ## Runs -/

namespace Instant

variable {env : Surroundings} {transport : Transport} {B : World → Fault → Prop}

/-- A world that a fiber passes by as it goes on at some instant of a run. -/
def Sees (env : Surroundings) (transport : Transport) (s : Schedule) (w : World) : Prop :=
  ∃ x, Reached env transport s x ∧ ∃ i p q, x.GoesOn i p ∧
    Process.Passes env transport (x.schedule.world, p) (w, q)

/-- The trace at the end of a run continues that of every world of the run. -/
theorem Sees.grows {s : Schedule} {w : World} (h : Sees env transport s w)
    (horderly : (before s).Orderly) {y : Instant} (hy : Reached env transport s y)
    (hover : y.schedule.isOver = true) : w.Grows y.schedule.world := by
  obtain ⟨x, hx, i, p, q, ⟨event, hevent, hgoes⟩, hpasses⟩ := h
  have hnext : Reached env transport s (x.next env transport) := by
    obtain ⟨n, rfl⟩ := hx
    exact ⟨n + 1, Function.iterate_succ_apply' _ _ _⟩
  have hworld : (x.next env transport).schedule.world =
      (p.advance env transport x.schedule.world).1 := by
    obtain ⟨batch, s'⟩ := x
    obtain ⟨rest, rfl⟩ : ∃ rest, batch = event :: rest := List.head?_eq_some_iff.1 hevent
    exact hgoes.world_eq (horderly.reached hx).family (Schedule.happens_handle event)
  have hlast := horderly.grows_end hnext hy hover
  rw [hworld] at hlast
  exact hpasses.grows.trans hlast

/-- **The faults of a run come up in worlds of the run.** -/
theorem blamed_reached {s : Schedule} (horderly : (before s).Orderly)
    (hstart : s.Holds (Process.IsBlamed env transport B s.world) fun _ => False) {x : Instant}
    (hx : Reached env transport s x) :
    x.schedule.Holds (Process.IsBlamed env transport B x.schedule.world)
      (fun f => ∃ w, Sees env transport s w ∧ B w f) := by
  obtain ⟨n, rfl⟩ := hx
  induction n with
  | zero =>
    intro i st hst
    have hold := hstart i st hst
    cases st with
    | queued r =>
      cases r with
      | go cs next => exact hold
      | clear cs e => exact fun f hf => absurd (hold f hf) id
      | stop e => exact fun f hf => absurd (hold f hf) id
    | asleep next => exact hold
    | joining cs left next => exact hold
    | clearing cs left e told => exact fun f hf => absurd (hold f hf) id
    | ended e => exact fun f hf => absurd (hold f hf) id
  | succ n ih =>
    have hthen := horderly.iterate env transport n
    have hreached : Reached env transport s ((next env transport)^[n] (before s)) := ⟨n, rfl⟩
    rw [Function.iterate_succ_apply']
    generalize (next env transport)^[n] (before s) = x at ih hthen hreached
    obtain ⟨batch, s'⟩ := x
    cases batch with
    | nil => exact ih
    | cons event rest =>
      have hstep : Schedule.Happens env transport s' event (s'.handle env transport event) :=
        Schedule.happens_handle event
      have hgrows : s'.world.Grows (s'.handle env transport event).world := hthen.grows_next
      -- Other processes keep what they have, since nodes that have been visited stay visited.
      refine Schedule.Holds.happens hthen.family ih (fun p hp => hp.grows hgrows) ?_ hstep
      rintro i p hgoes ⟨seen, hseen, hmeets⟩
      rw [Instant.next, hgoes.world_eq hthen.family hstep]
      refine (hmeets.advance s'.world hseen).mono ?_
      rintro f ⟨w, q, hpasses, hB⟩
      exact ⟨w, ⟨_, hreached, i, p, q, ⟨event, rfl, hgoes⟩, hpasses⟩, hB⟩

end Instant

end Workgraph
