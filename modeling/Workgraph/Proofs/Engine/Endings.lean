import Workgraph.Proofs.Engine.Progress
import Workgraph.Proofs.Engine.Standing
/-!
# How runs end

At every instant of a run, whatever its time limit, its fibers stand for a process that comes of the
one with which the run has started (`runs_reached`). So the run ends as processes do, unless it is
told to stop. A run without a time limit is not (`ends_run`).
-/

namespace Workgraph

namespace Instant

variable {env : Surroundings} {transport : Transport} {limit : Nat} {free : Bool} {q : Process}

theorem Undisturbed.next {x : Instant} (h : Undisturbed limit x) :
    ∃ limit', Undisturbed limit' (x.next env transport) := by
  obtain ⟨batch, s⟩ := x
  cases batch with
  | nil => exact ⟨limit, h.opened⟩
  | cons event rest =>
    -- The event itself is still to be done, so something is.
    obtain ⟨c, -, hle⟩ := h.within
    simp only [pending, List.cons_append, List.length_cons] at hle
    obtain ⟨less, rfl⟩ : ∃ l, limit = l + 1 := ⟨limit - 1, by omega⟩
    exact ⟨less, h.handle⟩

/-- **One step moves the process of the run.** -/
theorem stands_next {x : Instant} (hfamily : Schedule.Family x.pending x.schedule)
    (hcut : .cutOff ∈ x.batch → free = false) (hq : x.schedule.Stands free Schedule.main q) :
    ∃ q', (x.next env transport).schedule.Stands free Schedule.main q' ∧
      Process.Runs env transport (x.schedule.world, q)
        ((x.next env transport).schedule.world, q') := by
  obtain ⟨batch, s⟩ := x
  cases batch with
  | nil =>
    -- The beginning of a turn changes no fiber and leaves the world.
    exact ⟨q, hq.frame hfamily.linked fun _ _ _ => ⟨rfl, rfl⟩, .refl _⟩
  | cons event rest =>
    refine Schedule.stands_happens hfamily ?_ (Schedule.happens_handle event) hq
    rintro rfl
    exact hcut List.mem_cons_self

/-- **Whatever a run comes to comes of its start.** -/
theorem runs_reached {s : Schedule} (horderly : (before s).Orderly)
    (hq : s.Stands free Schedule.main q) {x : Instant} (hx : Reached env transport s x) :
    ∃ q', x.schedule.Stands false Schedule.main q' ∧
      Process.Runs env transport (s.world, q) (x.schedule.world, q') := by
  refine (Reached.induction (P := fun x => x.Orderly ∧ ∃ q',
      x.schedule.Stands false Schedule.main q' ∧
        Process.Runs env transport (s.world, q) (x.schedule.world, q')) ?_ ?_ hx).2
  · exact ⟨horderly, q, hq.weaken, .refl _⟩
  · rintro x ⟨hxo, q', hq', hruns⟩
    obtain ⟨q'', hq'', hstep⟩ := stands_next hxo.family (fun _ => rfl) hq'
    exact ⟨hxo.next, q'', hq'', hruns.trans hstep⟩

section
variable {clock : Binary64} {world : World} {p : Process} {n : Nat}

/-- A run starts with its process. -/
theorem stands_start (clock : Binary64) (world : World) (p : Process) (free : Bool) :
    (Schedule.start clock world p).Stands free Schedule.main p :=
  @Schedule.Stands.rests (Schedule.start clock world p) free Schedule.main
    (.queued (.go [] fun _ => p)) p rfl (fun htold => by cases htold) .ready

/-- As long as a run is not told to stop it stands for a process by itself. -/
theorem free_reached (hclock : clock.IsTime) (hp : p.Costs n) {x : Instant}
    (hx : Reached env transport (Schedule.start clock world p) x) :
    ∃ q, x.schedule.Stands true Schedule.main q ∧
      Process.Runs env transport (world, p) (x.schedule.world, q) := by
  refine (Reached.induction (P := fun x => (∃ limit, Undisturbed limit x) ∧ ∃ q,
      x.schedule.Stands true Schedule.main q ∧
        Process.Runs env transport (world, p) (x.schedule.world, q)) ?_ ?_ hx).2
  · exact ⟨⟨n + 4, undisturbed_start hclock world hp⟩, p, stands_start clock world p true, .refl _⟩
  · rintro x ⟨⟨limit, hlimit⟩, q, hq, hruns⟩
    obtain ⟨q', hq', hstep⟩ := stands_next hlimit.family
      (fun hin => absurd rfl (hlimit.quiet _ (List.mem_append_left _ hin)).2) hq
    exact ⟨hlimit.next, q', hq', hruns.trans hstep⟩

/-- **How a run ends that has as many turns as its cost.** -/
theorem ends_run (hclock : clock.IsTime) (hp : p.Costs n) {budget : Nat} (hbudget : n + 4 ≤ budget)
    {s : Schedule} (hs : s = (Schedule.start clock world p).run env transport budget) :
    s.isOver = true ∧
      ((∃ context, s.ending = .finished context ∧
          Process.Runs env transport (world, p) (s.world, .done context)) ∨
        ∃ f, s.ending = .failed f ∧
          Process.Runs env transport (world, p) (s.world, .fail f)) := by
  subst hs
  have hover : ((Schedule.start clock world p).run env transport budget).isOver = true :=
    (undisturbed_start hclock world hp).isOver_run budget hbudget
  refine ⟨hover, ?_⟩
  have hreached : Reached env transport (Schedule.start clock world p)
      (before ((Schedule.start clock world p).run env transport budget)) := reached_run budget _
  obtain ⟨q, hq, hruns⟩ := free_reached hclock hp hreached
  obtain ⟨e, he⟩ := Schedule.hasEnded_iff.1 hover
  have hending : ((Schedule.start clock world p).run env transport budget).ending = e := by
    simp only [Schedule.ending, he]
  rw [hending]
  cases hq.of_ended he with
  | finished => exact Or.inl ⟨_, rfl, hruns⟩
  | failed => exact Or.inr ⟨_, rfl, hruns⟩

end

end Instant

end Workgraph
