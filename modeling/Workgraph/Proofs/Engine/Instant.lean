import Mathlib.Logic.Function.Iterate
import Workgraph.Proofs.Engine.Family
/-!
# The instants of a run

A turn lets several events happen one after another. The instants of a run are the schedules between
them, each with the events of the turn that are yet to happen (`Instant`), so that one step lets one
event happen or begins a turn. Turns and runs are iterated steps. Every instant of a run is in order
(`Orderly`): the families are, and no fiber that is to be resumed or woken is forgotten.
-/

namespace Workgraph

namespace Schedule

variable {pending pending' : List Event} {s s' : Schedule} {i j : Nat}
variable {env : Surroundings} {transport : Transport}

/-! ## Fibers that are not forgotten -/

/-- A fiber that is to be resumed or woken will be. -/
def Awake (pending : List Event) (s : Schedule) (i : Nat) : Prop :=
  (∀ r, s.state? i = some (.queued r) → Event.resume i ∈ pending) ∧
    ∀ next, s.state? i = some (.asleep next) →
      Event.ring i ∈ pending ∨ ∃ t ∈ s.timers, t.event = .ring i

theorem Awake.of_idle (hqueued : ∀ r, s.state? i ≠ some (.queued r))
    (hasleep : ∀ next, s.state? i ≠ some (.asleep next)) : Awake pending s i :=
  ⟨fun r hr => absurd hr (hqueued r), fun next hnext => absurd hnext (hasleep next)⟩

theorem Awake.pass (h : Awake pending s i) (hstate : s'.state? i = s.state? i)
    (hresume : Event.resume i ∈ pending → Event.resume i ∈ pending')
    (hring : Event.ring i ∈ pending → Event.ring i ∈ pending')
    (htimers : ∀ t ∈ s.timers, t.event = .ring i → t ∈ s'.timers) : Awake pending' s' i := by
  refine ⟨fun r hr => hresume (h.1 r (hstate ▸ hr)), fun next hnext => ?_⟩
  rcases h.2 next (hstate ▸ hnext) with hin | ⟨t, ht, hevent⟩
  · exact Or.inl (hring hin)
  · exact Or.inr ⟨t, htimers t ht hevent, hevent⟩

theorem Nudge.awake (h : Nudge i s s') : ∃ js : List Nat,
    s'.queue.toList = s.queue.toList ++ js.map Event.resume ∧
      ∀ pending j, Awake pending s j → Awake (pending ++ js.map Event.resume) s' j := by
  cases h with
  | flag hlive =>
    refine ⟨[], by simp, fun pending j hj => ?_⟩
    exact hj.pass (state?_setCancelled true) (by simp) (by simp) fun _ ht _ => ht
  | @wake next hstate =>
    refine ⟨[i], by simp, fun pending j hj => ?_⟩
    by_cases hji : j = i
    · subst hji
      refine ⟨fun r _ => by simp, fun next hnext => ?_⟩
      rw [state?_enqueue_self, state?_dropTimer, hstate] at hnext
      cases hnext
    · refine hj.pass ((state?_enqueue_of_ne hji _).trans (state?_dropTimer _)) ?_ ?_ ?_
      · exact fun hin => List.mem_append_left _ hin
      · exact fun hin => List.mem_append_left _ hin
      · intro t ht hevent
        -- The timer that is dropped is that of the fiber that is resumed, not of this one.
        have hkeep : t.event ≠ Event.ring i := by
          rw [hevent]
          simpa using hji
        simpa [dropTimer] using ⟨ht, hkeep⟩
  | @mark cs left e told hstate =>
    refine ⟨[], by simp, fun pending j hj => ?_⟩
    by_cases hji : j = i
    · subst hji
      have hnew : (s.setState j (.clearing cs left e true)).state? j =
          some (.clearing cs left e true) := by
        simp [hstate]
      exact Awake.of_idle (by simp [hnew]) (by simp [hnew])
    · exact hj.pass (state?_setState_of_ne hji _) (by simp) (by simp) fun _ ht _ => ht

theorem Nudges.awake {P : Nat → Prop} (h : Nudges P s s') : ∃ js : List Nat,
    s'.queue.toList = s.queue.toList ++ js.map Event.resume ∧
      ∀ pending j, Awake pending s j → Awake (pending ++ js.map Event.resume) s' j := by
  induction h with
  | refl => exact ⟨[], by simp, fun pending j hj => by simpa using hj⟩
  | tail _ hstep ih =>
    obtain ⟨i, -, hn⟩ := hstep
    obtain ⟨js, hjs, hold⟩ := ih
    obtain ⟨ks, hks, hnew⟩ := hn.awake
    refine ⟨js ++ ks, by simp [hks, hjs], fun pending j hj => ?_⟩
    rw [List.map_append, ← List.append_assoc]
    exact hnew _ j (hold pending j hj)

theorem insertTimer_perm (t : Timer) (timers : List Timer) :
    (insertTimer t timers).Perm (t :: timers) := by
  induction timers with
  | nil => exact List.Perm.refl _
  | cons u rest ih =>
    unfold insertTimer
    split
    · exact List.Perm.refl _
    · exact (ih.cons u).trans (List.Perm.swap t u rest)

theorem mem_timers_setTimer {seconds : Binary64} {event : Event} {t : Timer} :
    t ∈ (s.setTimer seconds event).timers ↔ t = ⟨s.clock + seconds, event⟩ ∨ t ∈ s.timers := by
  rw [setTimer, (insertTimer_perm _ s.timers).mem_iff, List.mem_cons]

/-- What an operation on one fiber leaves of the others. -/
theorem Awake.append (h : Awake pending s j) (hstate : s'.state? j = s.state? j)
    (htimers : ∀ t ∈ s.timers, t ∈ s'.timers) (extra : List Event) :
    Awake (pending ++ extra) s' j :=
  h.pass hstate (fun hin => List.mem_append_left _ hin) (fun hin => List.mem_append_left _ hin)
    fun t ht _ => htimers t ht

/-- A fiber that ends is not to be resumed any more. -/
theorem awake_finish (hne : s.parent? i ≠ some i) {st : FiberState} (hstate : s.state? i = some st)
    (e : Ending) (h : j ≠ i → Awake pending s j) :
    Awake (pending ++ s.endReports i) (s.finish i e) j := by
  by_cases hji : j = i
  · subst hji
    have hnew := state?_finish_self hne (e := e)
    rw [hstate] at hnew
    exact Awake.of_idle (by simp [hnew]) (by simp [hnew])
  · refine (h hji).append (state?_finish_of_ne hne hji) ?_ _
    rw [timers_finish hne]
    exact fun _ ht => ht

/-- A fiber that forks waits, and the fibers that it starts are to be resumed. -/
theorem awake_fork (hi : i < s.fibers.size) (branches : List Process) (next : Unit → Process)
    (h : j ≠ i → Awake pending s j) :
    Awake (pending ++ (s.forked branches).map Event.resume) (s.fork i branches next) j := by
  refine ⟨fun r hr => ?_, fun next' hnext => ?_⟩
  · rcases state?_fork_cases hi hr with ⟨-, hst⟩ | ⟨-, hji, hold⟩ | ⟨k, hk, rfl, -⟩
    · cases hst
    · exact List.mem_append_left _ ((h hji).1 r hold)
    · -- A fiber that the fork starts is resumed by one of the new events.
      exact List.mem_append_right _ (List.mem_map_of_mem (mem_forked.2 (by omega)))
  · rcases state?_fork_cases hi hnext with ⟨-, hst⟩ | ⟨-, hji, hold⟩ | ⟨k, hk, -, hst⟩
    · cases hst
    · exact ((h hji).2 next' hold).imp (List.mem_append_left _) id
    · cases hst

/-- A fiber that is put on the queue is to be resumed. -/
theorem awake_enqueue (i : Nat) (r : Resumption) (h : j ≠ i → Awake pending s j) :
    Awake (pending ++ [.resume i]) (s.enqueue i r) j := by
  by_cases hji : j = i
  · subst hji
    refine ⟨fun _ _ => by simp, fun next hnext => ?_⟩
    rw [state?_enqueue_self] at hnext
    simp at hnext
  · exact (h hji).append (state?_enqueue_of_ne hji r) (fun _ ht => ht) _

/-- A fiber that neither is to be resumed nor sleeps needs no event. -/
theorem awake_setState {st : FiberState} (hqueued : ∀ r, st ≠ .queued r)
    (hasleep : ∀ next, st ≠ .asleep next) (h : j ≠ i → Awake pending s j) :
    Awake pending (s.setState i st) j := by
  by_cases hji : j = i
  · subst hji
    refine Awake.of_idle (fun r hr => ?_) fun next hnext => ?_
    · rw [state?_setState_self, Option.map_eq_some_iff] at hr
      exact hqueued r hr.choose_spec.2
    · rw [state?_setState_self, Option.map_eq_some_iff] at hnext
      exact hasleep next hnext.choose_spec.2
  · exact (h hji).pass (state?_setState_of_ne hji st) id id fun _ ht _ => ht

/-- A fiber that falls asleep sets a timer that will wake it. -/
theorem awake_sleep {st : FiberState} (hstate : s.state? i = some st) (seconds : Binary64)
    (next : Unit → Process) (h : j ≠ i → Awake pending s j) :
    Awake pending ((s.setTimer seconds (.ring i)).setState i (.asleep next)) j := by
  by_cases hji : j = i
  · subst hji
    refine ⟨fun r hr => ?_, fun _ _ => Or.inr ⟨_, mem_timers_setTimer.2 (Or.inl rfl), rfl⟩⟩
    rw [state?_setState_self] at hr
    simp [hstate] at hr
  · refine (h hji).pass ?_ id id fun t ht _ => mem_timers_setTimer.2 (Or.inr ht)
    rw [state?_setState_of_ne hji, state?_setTimer]

/-- Letting an event happen forgets no fiber. -/
theorem awake_happens {event : Event} (hfamily : Family (event :: pending) s)
    (hawake : ∀ j, Awake (event :: pending) s j) (hstep : Happens env transport s event s')
    (j : Nat) : ∃ extra, s'.queue.toList = s.queue.toList ++ extra ∧
      Awake (pending ++ extra) s' j := by
  -- A fiber that the event does not resume or wake does not need it.
  have hother : event ≠ .resume j → event ≠ .ring j → Awake pending s j := by
    intro hresume hring
    refine (hawake j).pass rfl (fun hin => ?_) (fun hin => ?_) fun _ ht _ => ht
    · exact (List.mem_cons.1 hin).resolve_left hresume.symm
    · exact (List.mem_cons.1 hin).resolve_left hring.symm
  have hresumed : ∀ i, event = .resume i → j ≠ i → Awake pending s j := by
    rintro i rfl hji
    exact hother (by simpa using Ne.symm hji) (by simp)
  have hreported : ∀ c k i, event = .report c k → j ≠ i → Awake pending s j := by
    rintro c k i rfl -
    exact hother (by simp) (by simp)
  have hparent : ∀ {i}, s.parent? i ≠ some i := fun {i} => hfamily.parent_ne i
  cases hstep with
  | @stops i r e hstate hend =>
    have hne : (s.setCancelled i false).parent? i ≠ some i := by simpa using hparent
    refine ⟨_, queue_finish hne, awake_finish hne (by simpa using hstate) e fun hji => ?_⟩
    exact (hresumed i rfl hji).pass (by simp) id id fun _ ht _ => ht
  | @clears i r cs e hstate hend =>
    obtain ⟨js, hjs, hnudged⟩ := (hfamily.linked.nudges_clear i cs).awake
    refine ⟨js.map Event.resume ++ ((s.setCancelled i false).cancelAll cs).lateReports cs, ?_, ?_⟩
    · rw [clear_eq]
      simp [hjs]
    · rw [clear_eq, ← List.append_assoc]
      refine awake_setState (by simp) (by simp) fun hji => ?_
      have hold : Awake pending (s.setCancelled i false) j :=
        (hresumed i rfl hji).pass (by simp) id id fun _ ht _ => ht
      exact (hnudged pending j hold).append rfl (fun _ ht => ht) _
  | @ends i cs next w e hstate htold hrun =>
    have hne : ((s.setCancelled i false).setWorld w).parent? i ≠ some i := by simpa using hparent
    refine ⟨_, queue_finish hne, awake_finish hne (by simpa using hstate) e fun hji => ?_⟩
    exact (hresumed i rfl hji).pass (by simp) id id fun _ ht _ => ht
  | @sleeps i cs next next' w seconds hstate htold hrun =>
    refine ⟨[], by simp, ?_⟩
    rw [List.append_nil]
    refine awake_sleep (by simpa using hstate) seconds next' fun hji => ?_
    exact (hresumed i rfl hji).pass (by simp) id id fun _ ht _ => ht
  | @forks i cs next next' w branches hstate htold hrun =>
    have hi : i < ((s.setCancelled i false).setWorld w).fibers.size := by
      simpa using lt_size_of_state? hstate
    refine ⟨_, queue_fork, awake_fork hi branches next' fun hji => ?_⟩
    exact (hresumed i rfl hji).pass (by simp) id id fun _ ht _ => ht
  | @wakes i next hstate =>
    refine ⟨[.resume i], by simp, awake_enqueue i _ fun hji => ?_⟩
    exact hother (by simp) (by simpa using Ne.symm hji)
  | @joins c p context cs left next =>
    exact ⟨[.resume p], by simp, awake_enqueue p _ (hreported c false p rfl)⟩
  | @counts c p context cs left next =>
    refine ⟨[], by simp, ?_⟩
    rw [List.append_nil]
    exact awake_setState (by simp) (by simp) (hreported c false p rfl)
  | @breaks c p e cs left next =>
    exact ⟨[.resume p], by simp, awake_enqueue p _ (hreported c false p rfl)⟩
  | @cleared c p e last cs left told =>
    exact ⟨[.resume p], by simp, awake_enqueue p _ (hreported c true p rfl)⟩
  | @discounts c p e last cs left told =>
    refine ⟨[], by simp, ?_⟩
    rw [List.append_nil]
    exact awake_setState (by simp) (by simp) (hreported c true p rfl)
  | expires =>
    exact ⟨[.cutOff], by simp, (hother (by simp) (by simp)).append rfl (fun _ ht => ht) _⟩
  | cuts =>
    obtain ⟨js, hjs, hnudged⟩ :=
      (nudges_cancel s.fibers.size main s hfamily.linked).awake
    have hold : Awake pending s j := hother (by simp) (by simp)
    exact ⟨js.map Event.resume, hjs, hnudged pending j hold⟩
  | nothing hidle =>
    refine ⟨[], by simp, ?_⟩
    rw [List.append_nil]
    refine ⟨fun r hr => ?_, fun next hnext => ?_⟩
    · rcases List.mem_cons.1 ((hawake j).1 r hr) with rfl | hin
      · exact absurd hr (hidle r)
      · exact hin
    · rcases (hawake j).2 next hnext with hin | htimer
      · rcases List.mem_cons.1 hin with rfl | hin
        · exact absurd hnext (hidle next)
        · exact Or.inl hin
      · exact Or.inr htimer

/-! ## Alarms -/

/-- What timers are set for: to wake fibers and to end the run. -/
def IsAlarm : Event → Prop
  | .ring _ | .expire => True
  | _ => False

theorem Nudge.timers_subset (h : Nudge i s s') : ∀ t ∈ s'.timers, t ∈ s.timers := by
  cases h with
  | flag hlive => exact fun t ht => ht
  | wake hstate => exact fun t ht => (List.mem_filter.1 ht).1
  | mark hstate => exact fun t ht => ht

theorem Nudges.timers_subset {P : Nat → Prop} (h : Nudges P s s') :
    ∀ t ∈ s'.timers, t ∈ s.timers :=
  h.keeps (K := fun t => ∀ timer ∈ t.timers, timer ∈ s.timers)
    (fun _ hn hsub timer ht => hsub timer (hn.timers_subset timer ht)) fun _ ht => ht

/-- The only timers that an event sets wake fibers that have fallen asleep. -/
theorem timers_happens {event : Event} (hfamily : Family (event :: pending) s)
    (hstep : Happens env transport s event s') :
    ∀ t ∈ s'.timers, t ∈ s.timers ∨ ∃ i cs next w seconds next',
      s.state? i = some (.queued (.go cs next)) ∧
        (next ()).advance env transport s.world = (w, .asleep seconds next') ∧
        t = ⟨s.clock + seconds, .ring i⟩ := by
  have hparent : ∀ {i}, s.parent? i ≠ some i := fun {i} => hfamily.parent_ne i
  cases hstep with
  | @stops i r e hstate hend =>
    rw [timers_finish (by simpa using hparent)]
    exact fun t ht => Or.inl ht
  | @clears i r cs e hstate hend =>
    have hnudges := hfamily.linked.nudges_clear i cs
    rw [clear_eq]
    exact fun t ht => Or.inl (hnudges.timers_subset t ht)
  | @ends i cs next w e hstate htold hrun =>
    rw [timers_finish (by simpa using hparent)]
    exact fun t ht => Or.inl ht
  | @sleeps i cs next next' w seconds hstate htold hrun =>
    intro t ht
    rcases mem_timers_setTimer.1 ht with rfl | ht
    · exact Or.inr ⟨i, cs, next, w, seconds, next', hstate, hrun, rfl⟩
    · exact Or.inl ht
  | cuts =>
    exact fun t ht => Or.inl
      ((nudges_cancel s.fibers.size main s hfamily.linked).timers_subset t ht)
  | _ => exact fun t ht => Or.inl ht

end Schedule

/-! ## Instants -/

/-- A schedule between two events of a turn, and the events of the turn that are yet to happen. -/
structure Instant where
  batch : List Event
  schedule : Schedule

namespace Schedule

/-- The events of the next turn. -/
def agenda (s : Schedule) : List Event :=
  s.queue.toList ++ (s.timers.takeWhile (isDue s.nextClock)).map Timer.event

/-- The schedule at the start of the next turn. -/
def opened (s : Schedule) : Schedule :=
  { s with
    queue := #[]
    timers := s.timers.drop (s.timers.takeWhile (isDue s.nextClock)).length
    clock := s.nextClock }

theorem turn_eq (env : Surroundings) (transport : Transport) (s : Schedule) :
    s.turn env transport = s.agenda.foldl (handle env transport) s.opened := by
  simp [turn, agenda, opened, ← Array.foldl_toList]

end Schedule

namespace Instant

variable (env : Surroundings) (transport : Transport)

/-- The events that are yet to happen. -/
def pending (x : Instant) : List Event := x.batch ++ x.schedule.queue.toList

/-- One step: the next event of the turn happens, or the next turn begins. -/
def next (x : Instant) : Instant :=
  match x.batch with
  | [] => ⟨x.schedule.agenda, x.schedule.opened⟩
  | event :: rest => ⟨rest, x.schedule.handle env transport event⟩

/-- The instant before the first turn. -/
def before (s : Schedule) : Instant := ⟨[], s⟩

theorem schedule_before (s : Schedule) : (before s).schedule = s := rfl

/-- The instant is one of the run that starts with a schedule. -/
def Reached (s : Schedule) (x : Instant) : Prop := ∃ n, (next env transport)^[n] (before s) = x

variable {env transport}

theorem iterate_batch (batch : List Event) :
    ∀ s : Schedule, (next env transport)^[batch.length] ⟨batch, s⟩ =
      before (batch.foldl (Schedule.handle env transport) s) := by
  induction batch with
  | nil => intro s; rfl
  | cons event rest ih =>
    intro s
    rw [List.length_cons, Function.iterate_succ_apply]
    exact ih (s.handle env transport event)

/-- A turn is as many steps as it has events, and the one that begins it. -/
theorem iterate_turn (s : Schedule) :
    (next env transport)^[s.agenda.length + 1] (before s) = before (s.turn env transport) := by
  rw [Function.iterate_succ_apply, Schedule.turn_eq]
  exact iterate_batch s.agenda s.opened

/-- What a run comes to is an instant of it. -/
theorem reached_run (n : Nat) :
    ∀ s : Schedule, Reached env transport s (before (s.run env transport n)) := by
  induction n with
  | zero => intro s; exact ⟨0, rfl⟩
  | succ n ih =>
    intro s
    unfold Schedule.run
    split
    · exact ⟨0, rfl⟩
    -- The steps of the first turn, and then those of the others.
    · obtain ⟨k, hk⟩ := ih (s.turn env transport)
      refine ⟨k + (s.agenda.length + 1), ?_⟩
      rw [Function.iterate_add_apply, iterate_turn, hk]

/-- What holds at the start and is kept by every step holds at every instant. -/
theorem Reached.induction {s : Schedule} {P : Instant → Prop} (hstart : P (before s))
    (hstep : ∀ x, P x → P (x.next env transport)) {x : Instant}
    (hx : Reached env transport s x) : P x := by
  obtain ⟨n, rfl⟩ := hx
  induction n with
  | zero => exact hstart
  | succ n ih =>
    rw [Function.iterate_succ_apply']
    exact hstep _ ih

/-- What holds of every instant of a run: the families are in order, no fiber is forgotten, and
timers are alarms. -/
structure Orderly (x : Instant) : Prop where
  family : Schedule.Family x.pending x.schedule
  awake : ∀ i, Schedule.Awake x.pending x.schedule i
  alarms : ∀ t ∈ x.schedule.timers, Schedule.IsAlarm t.event

theorem mem_due_or_later {s : Schedule} {t : Timer} (ht : t ∈ s.timers) :
    t ∈ s.timers.takeWhile (Schedule.isDue s.nextClock) ∨ t ∈ s.opened.timers := by
  have hsplit := List.prefix_iff_eq_append.1 (List.takeWhile_prefix (Schedule.isDue s.nextClock)
    (l := s.timers))
  rw [← hsplit] at ht
  exact List.mem_append.1 ht

/-- The beginning of a turn keeps an instant in order. -/
theorem Orderly.opened {s : Schedule} (h : Orderly ⟨[], s⟩) : Orderly ⟨s.agenda, s.opened⟩ := by
  obtain ⟨hfamily, hawake, halarms⟩ := h
  simp only [pending, List.nil_append] at hfamily hawake
  have hpending : pending ⟨s.agenda, s.opened⟩ = s.agenda := by
    simp [pending, Schedule.opened]
  refine ⟨?_, fun i => ?_, fun t ht => ?_⟩
  · rw [hpending]
    refine (hfamily.append fun c k hin => ?_).of_same (fun _ => rfl) (fun _ => rfl) rfl
    -- Timers are alarms, so what the clock adds to the events are no reports.
    obtain ⟨t, ht, hevent⟩ := List.mem_map.1 hin
    have halarm := halarms t ((List.takeWhile_prefix _).subset ht)
    rw [hevent] at halarm
    exact halarm
  · rw [hpending]
    refine ⟨fun r hr => List.mem_append_left _ ((hawake i).1 r hr), fun next hnext => ?_⟩
    rcases (hawake i).2 next hnext with hin | ⟨t, ht, hevent⟩
    · exact Or.inl (List.mem_append_left _ hin)
    -- The timer of a sleeping fiber is due and so among the events, or it is still set.
    · rcases mem_due_or_later ht with hdue | hlater
      · exact Or.inl (List.mem_append_right _ (hevent ▸ List.mem_map_of_mem hdue))
      · exact Or.inr ⟨t, hlater, hevent⟩
  · exact halarms t (List.mem_of_mem_drop ht)

/-- **Every step keeps an instant in order.** -/
theorem Orderly.next {x : Instant} (h : x.Orderly) : (x.next env transport).Orderly := by
  obtain ⟨batch, s⟩ := x
  cases batch with
  | nil => exact h.opened
  | cons event rest =>
    obtain ⟨hfamily, hawake, halarms⟩ := h
    have hstep : Schedule.Happens env transport s event (s.handle env transport event) :=
      Schedule.happens_handle event
    obtain ⟨extra, hqueue, hfamily'⟩ := Schedule.Family.happens hfamily hstep
    have hpending : pending ⟨rest, s.handle env transport event⟩ =
        rest ++ s.queue.toList ++ extra := by
      simp [pending, hqueue]
    refine ⟨by rw [Instant.next, hpending]; exact hfamily', fun i => ?_, fun t ht => ?_⟩
    -- What has been put on the queue is the same for both.
    · obtain ⟨extra', hqueue', hawake'⟩ := Schedule.awake_happens hfamily hawake hstep i
      rw [hqueue] at hqueue'
      obtain rfl := List.append_cancel_left hqueue'
      rw [Instant.next, hpending]
      exact hawake'
    · rcases Schedule.timers_happens hfamily hstep t ht with
        hold | ⟨i, cs, next, w, seconds, next', -, -, rfl⟩
      · exact halarms t hold
      · exact True.intro

theorem state?_start {clock : Binary64} {world : World} {p : Process} {i : Nat} {st : FiberState}
    (h : (Schedule.start clock world p).state? i = some st) :
    i = Schedule.main ∧ st = .queued (.go [] fun _ => p) := by
  cases i with
  | zero => exact ⟨rfl, by simpa [Schedule.state?, Schedule.start] using h.symm⟩
  | succ i => simp [Schedule.state?, Schedule.start] at h

/-- A run starts in order. -/
theorem orderly_start (clock : Binary64) (world : World) (p : Process) :
    Orderly (before (Schedule.start clock world p)) := by
  have hparent : ∀ i, (Schedule.start clock world p).parent? i = none := by
    intro i
    cases i <;> simp [Schedule.parent?, Schedule.start]
  have hpending : pending (before (Schedule.start clock world p)) = [.resume Schedule.main] := rfl
  refine ⟨⟨fun c q hq => ?_, fun c hc hne => ?_, fun c k => ?_, fun c k hk => ?_, fun q st hst => ?_⟩,
    fun i => ⟨fun r hr => ?_, fun next hnext => ?_⟩, fun t ht => ?_⟩
  · exact absurd ((hparent c).symm.trans hq) (by simp)
  · have hc' : c < 1 := hc
    exact absurd (Nat.lt_one_iff.1 hc') hne
  · simp [hpending]
  · simp [hpending] at hk
  · obtain ⟨rfl, rfl⟩ := state?_start hst
    exact ⟨⟨List.nodup_nil, by simp, fun c hc => absurd ((hparent c).symm.trans hc) (by simp)⟩,
      by simp⟩
  · obtain ⟨rfl, -⟩ := state?_start hr
    simp [hpending]
  · obtain ⟨-, h⟩ := state?_start hnext
    cases h
  · cases ht

/-- A time limit leaves the start of a run in order. -/
theorem Orderly.limited {s : Schedule} (h : Orderly (before s)) (seconds : Binary64) :
    Orderly (before (s.setTimer seconds .expire)) := by
  refine ⟨h.family.of_same (fun _ => rfl) (fun _ => rfl) rfl, fun i => ?_, fun t ht => ?_⟩
  · exact (h.awake i).pass rfl id id fun t ht _ => Schedule.mem_timers_setTimer.2 (Or.inr ht)
  · rcases Schedule.mem_timers_setTimer.1 ht with rfl | ht
    · trivial
    · exact h.alarms t ht

end Instant

end Workgraph
