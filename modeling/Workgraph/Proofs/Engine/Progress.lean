import Workgraph.Proofs.Engine.Cost
import Workgraph.Proofs.Number.Time
/-!
# Runs come to an end

A run without a time limit that has as many turns as its cost comes to an end (`isOver_run`). As
long as it has not ended something is left to happen: the last of the fibers that have not ended
does not wait for others, so it is about to be resumed or woken. And every turn lets something
happen, since a turn for which nothing else is left begins when the first timer is due.
-/

namespace Workgraph

namespace Schedule

variable {pending : List Event} {s s' : Schedule} {env : Surroundings} {transport : Transport}

theorem clock_finish {i : Nat} (hparent : s.parent? i ≠ some i) (e : Ending) :
    (s.finish i e).clock = s.clock := by
  simp [finish_eq e hparent]

/-- Only the beginning of a turn moves the clock. -/
theorem clock_happens {event : Event} (hfamily : Family (event :: pending) s)
    (hstep : Happens env transport s event s') : s'.clock = s.clock := by
  have hparent : ∀ {i}, s.parent? i ≠ some i := fun {i} => hfamily.parent_ne i
  cases hstep with
  | stops hstate hend => exact clock_finish (by simpa using hparent) _
  | @clears i r cs e hstate hend =>
    rw [clear_eq]
    exact (hfamily.linked.nudges_clear i cs).clock_eq
  | ends hstate htold hrun => exact clock_finish (by simpa using hparent) _
  | cuts => exact (nudges_cancel s.fibers.size main s hfamily.linked).clock_eq
  | _ => rfl

/-- No fiber disappears. -/
theorem size_happens {event : Event} (hfamily : Family (event :: pending) s)
    (hstep : Happens env transport s event s') : s.fibers.size ≤ s'.fibers.size := by
  have hparent : ∀ {i}, s.parent? i ≠ some i := fun {i} => hfamily.parent_ne i
  cases hstep with
  | stops hstate hend =>
    rw [size_finish (by simpa using hparent), size_setCancelled]
  | @clears i r cs e hstate hend =>
    have hsize := (hfamily.linked.nudges_clear i cs).size_eq
    rw [size_setCancelled] at hsize
    rw [clear_eq, size_setState]
    exact Nat.le_of_eq hsize.symm
  | ends hstate htold hrun =>
    rw [size_finish (by simpa using hparent), size_setWorld, size_setCancelled]
  | sleeps hstate htold hrun => simp
  | forks hstate htold hrun => simp
  | cuts =>
    exact Nat.le_of_eq (nudges_cancel s.fibers.size main s hfamily.linked).size_eq.symm
  | _ => simp

/-- Only the end of the time for a run tells it to stop. -/
theorem quiet_happens {event : Event} (hfamily : Family (event :: pending) s)
    (hne : event ≠ .expire) (hstep : Happens env transport s event s') :
    ∃ extra, s'.queue.toList = s.queue.toList ++ extra ∧
      ∀ e ∈ extra, e ≠ .expire ∧ e ≠ .cutOff := by
  have hparent : ∀ {i}, s.parent? i ≠ some i := fun {i} => hfamily.parent_ne i
  have hends : ∀ (s : Schedule) i, ∀ e ∈ s.endReports i, e ≠ .expire ∧ e ≠ .cutOff := by
    intro s i e he
    unfold endReports at he
    split at he
    · cases he
    · split at he
      · simp at he
        rcases he with rfl | rfl <;> simp
      · simp at he
        rw [he]
        simp
  have hresumes : ∀ js : List Nat, ∀ e ∈ js.map Event.resume, e ≠ .expire ∧ e ≠ .cutOff := by
    intro js e he
    obtain ⟨j, -, rfl⟩ := List.mem_map.1 he
    simp
  cases hstep with
  | stops hstate hend => exact ⟨_, queue_finish (by simpa using hparent), hends _ _⟩
  | @clears i r cs e hstate hend =>
    obtain ⟨js, hjs⟩ := (hfamily.linked.nudges_clear i cs).queue_eq
    refine ⟨js.map Event.resume ++ ((s.setCancelled i false).cancelAll cs).lateReports cs, ?_, ?_⟩
    · rw [clear_eq]
      simp [hjs]
    · intro e' he'
      rcases List.mem_append.1 he' with he' | he'
      · exact hresumes js e' he'
      · obtain ⟨d, -, rfl⟩ := List.mem_map.1 he'
        simp
  | ends hstate htold hrun => exact ⟨_, queue_finish (by simpa using hparent), hends _ _⟩
  | sleeps hstate htold hrun => exact ⟨[], by simp, by simp⟩
  | forks hstate htold hrun => exact ⟨_, queue_fork, hresumes _⟩
  | @wakes i next hstate => exact ⟨[.resume i], by simp, hresumes [i]⟩
  | @joins d p context cs left next => exact ⟨[.resume p], by simp, hresumes [p]⟩
  | counts hchild hparent hstate hleft => exact ⟨[], by simp, by simp⟩
  | @breaks d p e cs left next => exact ⟨[.resume p], by simp, hresumes [p]⟩
  | @cleared d p e last cs left told => exact ⟨[.resume p], by simp, hresumes [p]⟩
  | discounts hchild hparent hstate hleft => exact ⟨[], by simp, by simp⟩
  | expires => exact absurd rfl hne
  | cuts =>
    obtain ⟨js, hjs⟩ := (nudges_cancel s.fibers.size main s hfamily.linked).queue_eq
    exact ⟨js.map Event.resume, hjs, hresumes js⟩
  | nothing hidle => exact ⟨[], by simp, by simp⟩

end Schedule

namespace Instant

variable {env : Surroundings} {transport : Transport} {limit : Nat}

/-- What holds of every instant of a run without a time limit, when so much is still to be done. -/
structure Undisturbed (limit : Nat) (x : Instant) : Prop extends Orderly x where
  quiet : ∀ e ∈ x.pending, e ≠ .expire ∧ e ≠ .cutOff
  rings : ∀ t ∈ x.schedule.timers, ∃ i, t.event = .ring i
  clock : x.schedule.clock.IsTime
  due : ∀ t ∈ x.schedule.timers, t.due.IsTime
  main : Schedule.main < x.schedule.fibers.size
  within : Schedule.Within limit x.pending x.schedule

/-- An event lowers what is still to be done. -/
theorem Undisturbed.handle {event : Event} {rest : List Event} {s : Schedule}
    (h : Undisturbed (limit + 1) ⟨event :: rest, s⟩) :
    Undisturbed limit ⟨rest, s.handle env transport event⟩ := by
  have hstep : Schedule.Happens env transport s event (s.handle env transport event) :=
    Schedule.happens_handle event
  have hfamily := h.family
  have hne : event ≠ .expire := (h.quiet event (by simp [pending])).1
  obtain ⟨extra, hqueue, hquiet⟩ := Schedule.quiet_happens hfamily hne hstep
  -- What has been put on the queue is the same for all parts.
  obtain ⟨extra', hqueue', hwithin⟩ := Schedule.Within.happens hfamily h.within hne hstep
  rw [hqueue] at hqueue'
  obtain rfl := List.append_cancel_left hqueue'
  have hpending : pending ⟨rest, s.handle env transport event⟩ =
      rest ++ s.queue.toList ++ extra := by
    simp [pending, hqueue]
  have htimer := Schedule.timers_happens hfamily hstep
  refine ⟨h.toOrderly.next, fun e he => ?_, fun t ht => ?_, ?_, fun t ht => ?_, ?_, ?_⟩
  · rw [hpending] at he
    rcases List.mem_append.1 he with he | he
    · exact h.quiet e (List.mem_cons_of_mem event he)
    · exact hquiet e he
  · rcases htimer t ht with hold | ⟨i, cs, next, w, seconds, next', -, -, rfl⟩
    · exact h.rings t hold
    · exact ⟨i, rfl⟩
  · rw [Schedule.clock_happens hfamily hstep]
    exact h.clock
  · rcases htimer t ht with hold | ⟨i, cs, next, w, seconds, next', hstate, hrun, rfl⟩
    · exact h.due t hold
    · obtain ⟨c, hneeds, -⟩ := h.within
      obtain ⟨m, hcosts, -⟩ := hneeds i _ hstate
      have hpause := hcosts.advance env transport s.world
      rw [hrun] at hpause
      exact h.clock.add hpause.1
  · exact Nat.lt_of_lt_of_le h.main (Schedule.size_happens hfamily hstep)
  · rw [hpending]
    exact hwithin

theorem nextClock_cases (s : Schedule) : s.nextClock = s.clock ∨ ∃ t ∈ s.timers,
    s.nextClock = if Binary64.less s.clock t.due then t.due else s.clock := by
  unfold Schedule.nextClock
  split
  · rename_i t rest _ htimers
    exact Or.inr ⟨t, by simp [htimers], rfl⟩
  · exact Or.inl rfl

/-- The beginning of a turn does not. -/
theorem Undisturbed.opened {s : Schedule} (h : Undisturbed limit ⟨[], s⟩) :
    Undisturbed limit ⟨s.agenda, s.opened⟩ := by
  have hpending : pending ⟨s.agenda, s.opened⟩ = s.agenda := by
    simp [pending, Schedule.opened]
  have hdue := List.takeWhile_prefix (Schedule.isDue s.nextClock) (l := s.timers)
  refine ⟨h.toOrderly.opened, fun e he => ?_, fun t ht => h.rings t (List.mem_of_mem_drop ht), ?_,
    fun t ht => h.due t (List.mem_of_mem_drop ht), h.main, ?_⟩
  · rw [hpending] at he
    rcases List.mem_append.1 he with he | he
    · exact h.quiet e he
    · obtain ⟨t, ht, rfl⟩ := List.mem_map.1 he
      obtain ⟨i, hi⟩ := h.rings t (hdue.subset ht)
      simp [hi]
  · change s.nextClock.IsTime
    rcases nextClock_cases s with hsame | ⟨t, ht, hnext⟩
    · rw [hsame]
      exact h.clock
    · rw [hnext]
      generalize Binary64.less s.clock t.due = later
      cases later with
      | true => exact h.due t ht
      | false => exact h.clock
  · obtain ⟨c, hneeds, hle⟩ := h.within
    refine ⟨c, hneeds, ?_⟩
    -- The timers that are due become events, so nothing is added to what is still to be done.
    have hlength := congrArg List.length (List.prefix_iff_eq_append.1 hdue)
    rw [List.length_append] at hlength
    rw [hpending]
    simp only [pending, List.nil_append] at hle
    simp only [Schedule.agenda, Schedule.opened, List.length_append, List.length_map]
    omega

/-- As long as a fiber has not ended, something is left to happen. -/
theorem Undisturbed.stirs {s : Schedule} (h : Undisturbed limit ⟨[], s⟩) :
    ∀ n i, s.fibers.size - i = n → i < s.fibers.size → s.hasEnded i = false →
      s.queue.toList ≠ [] ∨ s.timers ≠ [] := by
  intro n
  induction n using Nat.strong_induction_on with
  | _ n ih =>
    intro i hn hi hlive
    have hawake := h.awake i
    obtain ⟨st, hst⟩ := Schedule.exists_state? hi
    -- A wait for children is a wait for one that has not ended, or for a report.
    have hwaits : ∀ {cs : List Nat} {clearing}, (∀ c ∈ cs, s.parent? c = some i) →
        0 < cs.countP (Schedule.isAwaited s.queue.toList s clearing) →
        s.queue.toList ≠ [] ∨ s.timers ≠ [] := by
      intro cs clearing hown hpos
      obtain ⟨c, hc, hawaited⟩ := List.countP_pos_iff.1 hpos
      by_cases hended : s.hasEnded c
      · simp only [Schedule.isAwaited, hended, Bool.not_true, Bool.false_or, decide_eq_true_eq]
          at hawaited
        exact Or.inl (List.ne_nil_of_mem hawaited)
      · have hparent := hown c hc
        have holder := h.family.older c i hparent
        have hc' := Schedule.lt_size_of_parent? hparent
        exact ih (s.fibers.size - c) (by omega) c rfl hc' (by simpa using hended)
    have hkeeps := h.family.keeps i st hst
    obtain ⟨a, hneeds, -⟩ := h.within
    have hneed := hneeds i st hst
    cases st with
    | queued r => exact Or.inl (List.ne_nil_of_mem (hawake.1 r hst))
    | asleep next =>
      rcases hawake.2 next hst with hin | ⟨t, ht, -⟩
      · exact Or.inl (List.ne_nil_of_mem hin)
      · exact Or.inr (List.ne_nil_of_mem ht)
    | joining cs left next =>
      obtain ⟨hkids, -, hleft, hpos, -⟩ := hkeeps
      exact hwaits hkids.own (hleft ▸ hpos hneed.1)
    | clearing cs left e told =>
      obtain ⟨hkids, hleft, hpos⟩ := hkeeps
      exact hwaits hkids.own (hleft ▸ hpos)
    | ended e =>
      rw [Schedule.hasEnded_of_state hst] at hlive
      cases hlive

/-- A turn of a run that has not ended lets something happen. -/
theorem Undisturbed.agenda_ne_nil {s : Schedule} (h : Undisturbed limit ⟨[], s⟩)
    (hover : s.isOver = false) : s.agenda ≠ [] := by
  unfold Schedule.agenda
  cases hqueue : s.queue.toList with
  | cons e rest => simp
  | nil =>
    rcases h.stirs _ Schedule.main rfl h.main hover with hstirs | hstirs
    · exact absurd hqueue hstirs
    -- Nothing is on the queue, so the turn begins when the first timer is due.
    · obtain ⟨t, rest, htimers⟩ := List.exists_cons_of_ne_nil hstirs
      have hclock : s.nextClock = if Binary64.less s.clock t.due then t.due else s.clock := by
        have hempty : s.queue.isEmpty = true := by simpa using hqueue
        unfold Schedule.nextClock
        rw [hempty, htimers]
      have hdue := Schedule.isDue_next (t := t) h.clock (h.due t (by simp [htimers]))
      rw [htimers, List.takeWhile_cons, hclock, hdue]
      simp

theorem Undisturbed.foldl (batch : List Event) : ∀ {limit : Nat} {s : Schedule},
    Undisturbed limit ⟨batch, s⟩ →
      Undisturbed (limit - batch.length) (before (batch.foldl (Schedule.handle env transport) s)) := by
  induction batch with
  | nil => intro limit s h; exact h
  | cons event rest ih =>
    intro limit s h
    obtain ⟨c, hneeds, hle⟩ := h.within
    simp only [pending, List.cons_append, List.length_cons] at hle
    obtain ⟨limit, rfl⟩ : ∃ l, limit = l + 1 := ⟨limit - 1, by omega⟩
    rw [List.length_cons, Nat.add_sub_add_right]
    exact ih h.handle

theorem Undisturbed.mono {more : Nat} {x : Instant} (h : Undisturbed limit x)
    (hle : limit ≤ more) : Undisturbed more x := by
  obtain ⟨c, hneeds, hc⟩ := h.within
  exact { h with within := ⟨c, hneeds, Nat.le_trans hc hle⟩ }

/-- A turn of a run that has not ended lowers what is still to be done. -/
theorem Undisturbed.turn {s : Schedule} (h : Undisturbed limit (before s)) (env : Surroundings)
    (transport : Transport) (hover : s.isOver = false) :
    0 < limit ∧ Undisturbed (limit - 1) (before (s.turn env transport)) := by
  have hpos := List.length_pos_iff.2 (h.agenda_ne_nil hover)
  have hopened := h.opened
  have hlength : s.agenda.length ≤ limit := by
    obtain ⟨c, -, hc⟩ := hopened.within
    simp only [pending, List.length_append] at hc
    omega
  have hturn : Undisturbed (limit - s.agenda.length) (before (s.turn env transport)) := by
    rw [Schedule.turn_eq]
    exact hopened.foldl s.agenda
  exact ⟨by omega, hturn.mono (by omega)⟩

/-- **A run that has as many turns as its cost comes to an end.** -/
theorem Undisturbed.isOver_run (n : Nat) : ∀ {limit : Nat} {s : Schedule},
    Undisturbed limit (before s) → limit ≤ n → (s.run env transport n).isOver = true := by
  induction n with
  | zero =>
    intro limit s h hn
    -- Nothing is left to be done, yet a turn would lower it.
    by_contra hover
    have hpos := (h.turn env transport (by simpa [Schedule.run] using hover)).1
    omega
  | succ n ih =>
    intro limit s h hn
    unfold Schedule.run
    generalize hover : s.isOver = ended
    cases ended with
    | true => exact hover
    | false =>
      obtain ⟨hpos, hturn⟩ := h.turn env transport hover
      exact ih hturn (by omega)

/-- A run starts with the cost of its process still to be done. -/
theorem undisturbed_start {clock : Binary64} (hclock : clock.IsTime) (world : World) {p : Process}
    {n : Nat} (hp : p.Costs n) :
    Undisturbed (n + 4) (before (Schedule.start clock world p)) := by
  refine ⟨orderly_start clock world p, fun e he => ?_, fun t ht => ?_, hclock, fun t ht => ?_,
    Nat.one_pos, fun _ => n + 3, fun i st hst => ?_, ?_⟩
  · obtain rfl : e = .resume Schedule.main := by
      simpa [pending, before, Schedule.start] using he
    simp
  · cases ht
  · cases ht
  · obtain ⟨rfl, rfl⟩ := state?_start hst
    exact ⟨n, hp, by simp⟩
  · simp [before, pending, Schedule.start, total]

end Instant

end Workgraph
