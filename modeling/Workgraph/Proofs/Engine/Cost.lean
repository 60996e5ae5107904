import Mathlib.Logic.Function.Basic
import Workgraph.Proofs.Engine.Instant
/-!
# How many events a run takes

What is still to be done is bounded by an amount that every event lowers. Each process has a cost, a
bound on the events that it leads to, whatever the store and the calls answer (`Process.Costs`).
Each fiber needs an amount that covers what it is doing (`FiberState.Needs`), and a schedule is
within a limit if all amounts, events and timers together are (`Schedule.Within`).
-/

namespace Workgraph

/-- The sum of a number for each of the first indices. -/
def total : Nat → (Nat → Nat) → Nat
  | 0, _ => 0
  | n + 1, c => total n c + c n

theorem total_succ (n : Nat) (c : Nat → Nat) : total (n + 1) c = total n c + c n := rfl

theorem total_congr {n : Nat} {c d : Nat → Nat} (h : ∀ i < n, c i = d i) :
    total n c = total n d := by
  induction n with
  | zero => rfl
  | succ n ih =>
    have hrest := ih fun i hi => h i (Nat.lt_succ_of_lt hi)
    rw [total_succ, total_succ, hrest, h n (Nat.lt_succ_self n)]

theorem total_update {n i : Nat} (hi : i < n) (c : Nat → Nat) (v : Nat) :
    total n (Function.update c i v) + c i = total n c + v := by
  induction n with
  | zero => cases hi
  | succ n ih =>
    rw [total_succ, total_succ]
    by_cases hin : i = n
    · subst hin
      have hsame : total i (Function.update c i v) = total i c :=
        total_congr fun j hj => Function.update_of_ne (Nat.ne_of_lt hj) v c
      rw [hsame, Function.update_self]
      omega
    · have hih := ih (by omega)
      rw [Function.update_of_ne (Ne.symm hin)]
      omega

theorem total_add (a b : Nat) (c : Nat → Nat) :
    total (a + b) c = total a c + total b fun k => c (a + k) := by
  induction b with
  | zero => simp [total]
  | succ b ih =>
    rw [← Nat.add_assoc, total_succ, total_succ, ih]
    omega

theorem total_add_const (n d : Nat) (c : Nat → Nat) :
    (total n fun k => c k + d) = total n c + n * d := by
  induction n with
  | zero => simp [total]
  | succ n ih =>
    rw [total_succ, total_succ, ih, Nat.succ_mul]
    omega

theorem le_total {n i : Nat} (hi : i < n) (c : Nat → Nat) : c i ≤ total n c := by
  induction n with
  | zero => cases hi
  | succ n ih =>
    rw [total_succ]
    by_cases hin : i = n
    · subst hin
      omega
    · have := ih (by omega)
      omega

namespace Process

/-- A bound on the events that a process leads to. It sleeps only for a while, and forks only into
branches. A branch accounts for its start and its reports, and for being cleared away. -/
inductive Costs : Process → Nat → Prop where
  | done {context : Context} {n : Nat} : Costs (done context) n
  | fail {fault : Fault} {n : Nat} : Costs (fail fault) n
  | visit {id type : String} {next : Unit → Process} {n : Nat} (hnext : Costs (next ()) n) :
      Costs (visit id type next) n
  | warn {words : String} {next : Unit → Process} {n : Nat} (hnext : Costs (next ()) n) :
      Costs (warn words next) n
  | store {request : StoreRequest} {next : Value → Process} {n : Nat}
      (hnext : ∀ v, Costs (next v) n) : Costs (store request next) n
  | call {request : CallRequest} {next : CallAnswer → Process} {m n : Nat}
      (hnext : ∀ a, Costs (next a) m) (hle : m + 2 ≤ n) : Costs (call request next) n
  | sleep {seconds : Binary64} {next : Unit → Process} {m n : Nat} (hwait : isWait seconds = true)
      (hnext : Costs (next ()) m) (hle : m + 2 ≤ n) : Costs (sleep seconds next) n
  | fork {branches : List Process} {next : Unit → Process} {c : Nat → Nat} {m n : Nat}
      (hne : branches ≠ []) (hbranches : ∀ k (hk : k < branches.length), Costs branches[k] (c k))
      (hnext : Costs (next ()) m) (hle : total branches.length (fun k => c k + 5) + m + 1 ≤ n) :
      Costs (fork branches next) n

namespace Costs

variable {p : Process} {m n : Nat}

theorem mono (h : Costs p m) (hmn : m ≤ n) : Costs p n := by
  induction h generalizing n with
  | done => exact .done
  | fail => exact .fail
  | visit _ ih => exact .visit (ih hmn)
  | warn _ ih => exact .warn (ih hmn)
  | store _ ih => exact .store fun v => ih v hmn
  | call hnext hle _ => exact .call hnext (Nat.le_trans hle hmn)
  | sleep hwait hnext hle _ => exact .sleep hwait hnext (Nat.le_trans hle hmn)
  | fork hne hbranches hnext hle _ _ => exact .fork hne hbranches hnext (Nat.le_trans hle hmn)

end Costs

end Process

/-- What is left of a cost where a process comes to a halt. -/
def Pause.Costs (n : Nat) : Pause → Prop
  | .ended _ => True
  | .asleep seconds next => isWait seconds = true ∧ ∃ m, (next ()).Costs m ∧ m + 2 ≤ n
  | .forked branches next => (Process.fork branches next).Costs n

theorem Pause.Costs.mono {pause : Pause} {m n : Nat} (h : pause.Costs m) (hmn : m ≤ n) :
    pause.Costs n := by
  cases pause with
  | ended e => exact True.intro
  | asleep seconds next =>
    obtain ⟨hwait, k, hnext, hle⟩ := h
    exact ⟨hwait, k, hnext, Nat.le_trans hle hmn⟩
  | forked branches next => exact Process.Costs.mono h hmn

theorem Process.Costs.advance (env : Surroundings) (transport : Transport) {p : Process} {n : Nat}
    (h : p.Costs n) (w : World) : (p.advance env transport w).2.Costs n := by
  induction h generalizing w with
  | done => exact True.intro
  | fail => exact True.intro
  | visit _ ih => exact ih _
  | warn _ ih => exact ih _
  | store hnext ih =>
    simp only [Process.advance]
    split
    · exact ih _ _
    · exact True.intro
  -- A call that takes time costs what a sleep costs, the timer and the resumption.
  | @call request next m n hnext hle ih =>
    simp only [Process.advance]
    generalize hwait : isWait (transport request).delay = waits
    cases waits with
    | true =>
      refine ⟨hwait, m, ?_, hle⟩
      unfold afterCall ofExcept
      split
      · exact hnext _
      · exact .fail
    | false =>
      simp only [Bool.false_eq_true, if_false]
      split
      · exact (ih _ _).mono (by omega)
      · exact True.intro
  | @sleep seconds next m n hwait hnext hle _ => exact ⟨hwait, m, hnext, hle⟩
  | fork hne hbranches hnext hle _ _ => exact Process.Costs.fork hne hbranches hnext hle

namespace FiberState

/-- An amount that covers what a fiber is doing. -/
def Needs (n : Nat) : FiberState → Prop
  | .queued (.go cs next) => ∃ m, (next ()).Costs m ∧ m + cs.length + 3 ≤ n
  | .queued (.clear cs _) => cs.length + 3 ≤ n
  | .queued (.stop _) => 2 ≤ n
  | .asleep next => ∃ m, (next ()).Costs m ∧ m + 4 ≤ n
  | .joining cs _ next => cs ≠ [] ∧ ∃ m, (next ()).Costs m ∧ m + cs.length + 4 ≤ n
  | .clearing _ _ _ _ => 3 ≤ n
  | .ended _ => True

end FiberState

namespace Schedule

variable {pending : List Event} {s s' : Schedule} {i j : Nat}

/-- What is still to be done is within a limit: amounts for all fibers, and one for each event and
each timer. -/
def Within (limit : Nat) (pending : List Event) (s : Schedule) : Prop :=
  ∃ c : Nat → Nat, (∀ i st, s.state? i = some st → st.Needs (c i)) ∧
    total s.fibers.size c + pending.length + s.timers.length ≤ limit

namespace Within

variable {limit : Nat}

/-- A change of one fiber moves its amount to events and timers. -/
theorem change {pending' : List Event} {st : FiberState} {c : Nat → Nat} {n : Nat}
    (hneeds : ∀ i st, s.state? i = some st → st.Needs (c i)) (hi : i < s.fibers.size)
    (hsize : s'.fibers.size = s.fibers.size) (hself : s'.state? i = some st) (hst : st.Needs n)
    (hother : ∀ j, j ≠ i → s'.state? j = s.state? j)
    (hle : total s.fibers.size c + n + pending'.length + s'.timers.length ≤ limit + c i) :
    Within limit pending' s' := by
  refine ⟨Function.update c i n, fun j st' hst' => ?_, ?_⟩
  · by_cases hji : j = i
    · subst hji
      rw [hself] at hst'
      cases hst'
      rwa [Function.update_self]
    · rw [Function.update_of_ne hji]
      exact hneeds j st' (hother j hji ▸ hst')
  · have hsum := total_update hi c n
    rw [hsize]
    omega

theorem nudge (h : Within limit pending s) (hn : Nudge i s s') : ∃ js : List Nat,
    s'.queue.toList = s.queue.toList ++ js.map Event.resume ∧
      Within limit (pending ++ js.map Event.resume) s' := by
  obtain ⟨c, hneeds, hle⟩ := h
  cases hn with
  | flag hlive =>
    refine ⟨[], by simp, c, fun j st hst => hneeds j st (by simpa using hst), ?_⟩
    simpa using hle
  | @wake next hstate =>
    obtain ⟨m, -, hm⟩ := hneeds i _ hstate
    have htimers : ((s.dropTimer (.ring i)).enqueue i (.stop .cancelled)).timers.length ≤
        s.timers.length := List.length_filter_le _ _
    refine ⟨[i], by simp, change hneeds (lt_size_of_state? hstate) (by simp)
      (by simp [hstate]) (show FiberState.Needs 2 (.queued (.stop .cancelled)) from Nat.le_refl 2)
      (fun j hj => (state?_enqueue_of_ne hj _).trans (state?_dropTimer _)) ?_⟩
    simp only [List.length_append, List.length_map, List.length_singleton]
    omega
  | @mark cs left e told hstate =>
    have hthree : 3 ≤ c i := hneeds i _ hstate
    refine ⟨[], by simp, change hneeds (lt_size_of_state? hstate) (by simp) (by simp [hstate])
      (show FiberState.Needs 3 (.clearing cs left e true) from Nat.le_refl 3)
      (fun j hj => state?_setState_of_ne hj _) ?_⟩
    simp only [List.map_nil, List.append_nil, timers_setState]
    omega

theorem nudges {P : Nat → Prop} (h : Within limit pending s) (hn : Nudges P s s') :
    ∃ js : List Nat, s'.queue.toList = s.queue.toList ++ js.map Event.resume ∧
      Within limit (pending ++ js.map Event.resume) s' := by
  induction hn with
  | refl => exact ⟨[], by simp, by simpa using h⟩
  | tail _ hstep ih =>
    obtain ⟨i, -, hn⟩ := hstep
    obtain ⟨js, hjs, hold⟩ := ih
    obtain ⟨ks, hks, hnew⟩ := hold.nudge hn
    refine ⟨js ++ ks, by simp [hks, hjs], ?_⟩
    rw [List.map_append, ← List.append_assoc]
    exact hnew

theorem length_endReports_le (s : Schedule) (i : Nat) : (s.endReports i).length ≤ 2 := by
  unfold endReports
  split
  · simp
  · split <;> simp

section
variable {c : Nat → Nat} (hneeds : ∀ i st, s.state? i = some st → st.Needs (c i))
  (hle : total s.fibers.size c + pending.length + s.timers.length ≤ limit)
include hneeds hle

/-- The amounts that cover a schedule still do after a change of what they do not depend on. -/
theorem covers_of_same (hstate : ∀ i, s'.state? i = s.state? i)
    (hsize : s'.fibers.size = s.fibers.size) (htimers : s'.timers = s.timers) :
    (∀ i st, s'.state? i = some st → st.Needs (c i)) ∧
      total s'.fibers.size c + pending.length + s'.timers.length ≤ limit := by
  rw [hsize, htimers]
  exact ⟨fun i st hst => hneeds i st (hstate i ▸ hst), hle⟩

/-- A fiber that is to be resumed spares one for the event that resumes it. -/
theorem enqueue {st : FiberState} {r : Resumption} {n : Nat} (hstate : s.state? i = some st)
    (hr : FiberState.Needs n (.queued r)) (hn : n + 1 ≤ c i) :
    Within limit (pending ++ [.resume i]) (s.enqueue i r) := by
  refine change hneeds (lt_size_of_state? hstate) (by simp) (by simp [hstate]) hr
    (fun j hj => state?_enqueue_of_ne hj _) ?_
  simp only [timers_enqueue, List.length_append, List.length_singleton]
  omega

/-- A fiber that needs no more than before changes nothing. -/
theorem setState {st st' : FiberState} (hstate : s.state? i = some st) (hst' : st'.Needs (c i)) :
    Within limit pending (s.setState i st') := by
  refine change hneeds (lt_size_of_state? hstate) (by simp) (by simp [hstate]) hst'
    (fun j hj => state?_setState_of_ne hj _) ?_
  rw [timers_setState]
  omega

/-- A fiber that ends spares two for its reports. -/
theorem finish {st : FiberState} (hstate : s.state? i = some st) (hne : s.parent? i ≠ some i)
    (hneed : 2 ≤ c i) (e : Ending) : Within limit (pending ++ s.endReports i) (s.finish i e) := by
  refine change hneeds (lt_size_of_state? hstate) (size_finish hne) ?_
    (show FiberState.Needs 0 (.ended e) from True.intro) (fun j hj => state?_finish_of_ne hne hj) ?_
  · rw [state?_finish_self hne, hstate]
    rfl
  · have hreports := length_endReports_le s i
    rw [timers_finish hne, List.length_append]
    omega

/-- A fiber that clears its children away spares one for each of them and keeps enough for its own
end. -/
theorem clear (hfamily : Family pending' s) {r : Resumption} {cs : List Nat}
    (hstate : s.state? i = some (.queued r)) (hchildren : FiberState.children (.queued r) = cs)
    (hneed : ∀ n, FiberState.Needs n (.queued r) → cs.length + 3 ≤ n) (e : Ending) :
    ∃ extra, (s.clear i cs e).queue.toList = s.queue.toList ++ extra ∧
      Within limit (pending ++ extra) (s.clear i cs e) := by
  have hown : ∀ d ∈ cs, s.parent? d = some i :=
    fun d hd => hfamily.linked i _ hstate d (hchildren ▸ hd)
  have hwithin : Within limit pending s := ⟨c, hneeds, hle⟩
  obtain ⟨js, hjs, c', hneeds', hle'⟩ := hwithin.nudges
    (nudges_cancelAll (P := fun _ => True) cs s hfamily.linked fun _ _ _ _ => True.intro)
  -- The fiber itself is not told to stop, so it still has what it had.
  have hstill : (s.cancelAll cs).state? i = some (.queued r) := by
    rw [← hstate]
    simp only [state?, hfamily.fiber_cancelAll hown]
  have hneed' : cs.length + 3 ≤ c' i := hneed _ (hneeds' i _ hstill)
  have hlate : ((s.cancelAll cs).lateReports cs).length ≤ cs.length := by
    unfold lateReports
    rw [List.length_map]
    exact List.length_filter_le _ _
  refine ⟨js.map Event.resume ++ (s.cancelAll cs).lateReports cs, ?_, ?_⟩
  · rw [clear_eq]
    simp [hjs]
  · rw [clear_eq]
    refine change hneeds' (lt_size_of_state? hstill) (by simp) ?_
      (show FiberState.Needs 3 (.clearing cs cs.length e false) from Nat.le_refl 3)
      (fun j hj => state?_setState_of_ne hj _) ?_
    · rw [state?_setState_self]
      exact congrArg (Option.map _) hstill
    · simp only [List.length_append] at hle' ⊢
      rw [timers_setState]
      simp only
      omega

/-- A fiber that forks gives its branches what they cost, with three for each to start and report,
and one for the event that starts it. -/
theorem fork {st : FiberState} {branches : List Process} {next : Unit → Process} {k : Nat → Nat}
    {m : Nat} (hstate : s.state? i = some st) (hne : branches ≠ [])
    (hbranches : ∀ d (hd : d < branches.length), (branches[d]).Costs (k d))
    (hnext : (next ()).Costs m)
    (hcost : total branches.length (fun d => k d + 5) + m + 4 ≤ c i) :
    Within limit (pending ++ (s.forked branches).map Event.resume) (s.fork i branches next) := by
  have hi := lt_size_of_state? hstate
  let c' : Nat → Nat := fun j =>
    if j < s.fibers.size then Function.update c i (m + branches.length + 4) j
    else k (j - s.fibers.size) + 3
  have hbranch : ∀ d, c' (s.fibers.size + d) = k d + 3 := by
    intro d
    simp only [c']
    rw [if_neg (by omega), Nat.add_sub_cancel_left]
  refine ⟨c', fun j st hst => ?_, ?_⟩
  · rcases state?_fork_cases hi hst with ⟨rfl, rfl⟩ | ⟨hj, hji, hold⟩ | ⟨d, hd, rfl, rfl⟩
    · refine ⟨?_, m, hnext, ?_⟩
      · rw [← List.length_pos_iff, length_forked]
        exact List.length_pos_iff.2 hne
      · simp [c', hi]
    · simpa [c', hj, hji] using hneeds j st hold
    · exact ⟨k d, hbranches d hd, by simp [hbranch]⟩
  · have hold : total s.fibers.size c' =
        total s.fibers.size (Function.update c i (m + branches.length + 4)) :=
      total_congr fun j hj => if_pos hj
    have hnew : (total branches.length fun d => c' (s.fibers.size + d)) =
        total branches.length fun d => k d + 3 :=
      total_congr fun d _ => hbranch d
    have hsum := total_update hi c (m + branches.length + 4)
    rw [total_add_const] at hcost
    rw [size_fork, total_add, hold, hnew, total_add_const, timers_fork, List.length_append,
      List.length_map, length_forked]
    omega

/-- A fiber that falls asleep spares one for its timer. -/
theorem sleep {st : FiberState} {next : Unit → Process} {m : Nat} {seconds : Binary64}
    (hstate : s.state? i = some st) (hnext : (next ()).Costs m) (hneed : m + 5 ≤ c i) :
    Within limit pending ((s.setTimer seconds (.ring i)).setState i (.asleep next)) := by
  have htimers : (insertTimer ⟨s.clock + seconds, .ring i⟩ s.timers).length =
      s.timers.length + 1 := (insertTimer_perm _ s.timers).length_eq
  refine change hneeds (lt_size_of_state? hstate) (by simp) (by simp [hstate])
    (show FiberState.Needs (m + 4) (.asleep next) from ⟨m, hnext, Nat.le_refl _⟩) ?_ ?_
  · intro j hj
    rw [state?_setState_of_ne hj]
    simp
  · simp only [timers_setState, setTimer, htimers]
    omega

end

/-- **Every event lowers what is still to be done.** -/
theorem happens {env : Surroundings} {transport : Transport} {event : Event}
    (hfamily : Family (event :: pending) s) (h : Within (limit + 1) (event :: pending) s)
    (hne : event ≠ .expire) (hstep : Happens env transport s event s') :
    ∃ extra, s'.queue.toList = s.queue.toList ++ extra ∧ Within limit (pending ++ extra) s' := by
  obtain ⟨c, hneeds, hall⟩ := h
  have hle : total s.fibers.size c + pending.length + s.timers.length ≤ limit := by
    rw [List.length_cons] at hall
    omega
  have hparent : ∀ {i}, s.parent? i ≠ some i := fun {i} => hfamily.parent_ne i
  -- A fiber that is resumed is told no more, and the world changes, before anything else.
  have hresumed : ∀ i w, (∀ j st, ((s.setCancelled i false).setWorld w).state? j = some st →
      st.Needs (c j)) ∧ total ((s.setCancelled i false).setWorld w).fibers.size c +
        pending.length + ((s.setCancelled i false).setWorld w).timers.length ≤ limit := by
    intro i w
    exact covers_of_same hneeds hle (by simp) (by simp) (by simp)
  have hsame : ∀ i, (∀ j st, (s.setCancelled i false).state? j = some st → st.Needs (c j)) ∧
      total (s.setCancelled i false).fibers.size c + pending.length +
        (s.setCancelled i false).timers.length ≤ limit := by
    intro i
    exact covers_of_same hneeds hle (by simp) (by simp) (by simp)
  cases hstep with
  | @stops i r e hstate hend =>
    have hne' : (s.setCancelled i false).parent? i ≠ some i := by simpa using hparent
    have hneed : 2 ≤ c i := by
      have hc := hneeds i _ hstate
      rcases hend with ⟨next, -, rfl, -⟩ | ⟨last, rfl, -⟩
      · obtain ⟨m, -, hm⟩ := hc
        omega
      · exact hc
    obtain ⟨hneeds', hle'⟩ := hsame i
    exact ⟨_, queue_finish hne', finish hneeds' hle' (by simpa using hstate) hne' hneed e⟩
  | @clears i r cs e hstate hend =>
    have hfamily' : Family (.resume i :: pending) (s.setCancelled i false) :=
      hfamily.of_same (by simp) (by simp) (by simp)
    have hchildren : FiberState.children (.queued r) = cs := by
      rcases hend with ⟨next, -, rfl, -⟩ | ⟨last, rfl, -⟩ <;> rfl
    have hneed : ∀ n, FiberState.Needs n (.queued r) → cs.length + 3 ≤ n := by
      intro n hn
      rcases hend with ⟨next, -, rfl, -⟩ | ⟨last, rfl, -⟩
      · obtain ⟨m, -, hm⟩ := hn
        omega
      · exact hn
    obtain ⟨hneeds', hle'⟩ := hsame i
    exact clear hneeds' hle' hfamily' (by simpa using hstate) hchildren hneed e
  | @ends i cs next w e hstate htold hrun =>
    have hne' : ((s.setCancelled i false).setWorld w).parent? i ≠ some i := by
      simpa using hparent
    obtain ⟨m, -, hm⟩ := hneeds i _ hstate
    obtain ⟨hneeds', hle'⟩ := hresumed i w
    exact ⟨_, queue_finish hne',
      finish hneeds' hle' (by simpa using hstate) hne' (Nat.le_trans (by omega) hm) e⟩
  | @sleeps i cs next next' w seconds hstate htold hrun =>
    obtain ⟨m, hm, hmle⟩ := hneeds i _ hstate
    have hpause := hm.advance env transport s.world
    rw [hrun] at hpause
    obtain ⟨-, m', hnext, hmle'⟩ := hpause
    obtain ⟨hneeds', hle'⟩ := hresumed i w
    refine ⟨[], by simp, ?_⟩
    rw [List.append_nil]
    exact sleep hneeds' hle' (by simpa using hstate) hnext (by omega)
  | @forks i cs next next' w branches hstate htold hrun =>
    obtain ⟨m, hm, hmle⟩ := hneeds i _ hstate
    have hpause := hm.advance env transport s.world
    rw [hrun] at hpause
    cases hpause with
    | fork hbranches' hbranches hnext hcost =>
      obtain ⟨hneeds', hle'⟩ := hresumed i w
      exact ⟨_, queue_fork,
        fork hneeds' hle' (by simpa using hstate) hbranches' hbranches hnext (by omega)⟩
  | @wakes i next hstate =>
    obtain ⟨m, hm, hmle⟩ := hneeds i _ hstate
    have hneed : FiberState.Needs (m + 3) (.queued (.go [] next)) := ⟨m, hm, Nat.le_refl _⟩
    exact ⟨[.resume i], by simp, enqueue hneeds hle hstate hneed hmle⟩
  | @joins d p context cs left next hchild hparent hstate hleft =>
    obtain ⟨-, m, hm, hmle⟩ := hneeds p _ hstate
    have hneed : FiberState.Needs (m + cs.length + 3) (.queued (.go cs next)) :=
      ⟨m, hm, Nat.le_refl _⟩
    exact ⟨[.resume p], by simp, enqueue hneeds hle hstate hneed hmle⟩
  | @counts d p context cs left next hchild hparent hstate hleft =>
    have hold : FiberState.Needs (c p) (.joining cs left next) := hneeds p _ hstate
    have hneed : FiberState.Needs (c p) (.joining cs (left - 1) next) := hold
    exact ⟨[], by simp, by rw [List.append_nil]; exact setState hneeds hle hstate hneed⟩
  | @breaks d p e cs left next hchild hfailed hparent hstate =>
    obtain ⟨-, m, hm, hmle⟩ := hneeds p _ hstate
    have hneed : FiberState.Needs (cs.length + 3) (.queued (.clear cs e)) := Nat.le_refl _
    exact ⟨[.resume p], by simp, enqueue hneeds hle hstate hneed (by omega)⟩
  | @cleared d p e last cs left told hchild hparent hstate hleft =>
    have hthree : 3 ≤ c p := hneeds p _ hstate
    have hneed : FiberState.Needs 2 (.queued (.stop (last.unless told))) := Nat.le_refl 2
    exact ⟨[.resume p], by simp, enqueue hneeds hle hstate hneed hthree⟩
  | @discounts d p e last cs left told hchild hparent hstate hleft =>
    have hold : FiberState.Needs (c p) (.clearing cs left last told) := hneeds p _ hstate
    have hneed : FiberState.Needs (c p) (.clearing cs (left - 1) last told) := hold
    exact ⟨[], by simp, by rw [List.append_nil]; exact setState hneeds hle hstate hneed⟩
  | expires => exact absurd rfl hne
  | cuts =>
    have hwithin : Within limit pending s := ⟨c, hneeds, hle⟩
    obtain ⟨js, hjs, hwithin'⟩ :=
      hwithin.nudges (nudges_cancel s.fibers.size main s hfamily.linked)
    exact ⟨js.map Event.resume, hjs, hwithin'⟩
  | nothing hidle => exact ⟨[], by simp, c, hneeds, by simpa using hle⟩

end Within

end Schedule

end Workgraph
