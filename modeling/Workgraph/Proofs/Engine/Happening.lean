import Mathlib.Data.List.Nodup
import Workgraph.Engine.Schedule
/-!
# What an event can do

The operations on a schedule, each by what it leaves of a fiber, and one relation that says
everything that letting an event happen can come to (`Happens`). Every invariant of schedules is
proved from that relation.
-/

namespace Workgraph

namespace Schedule

variable {s : Schedule} {i j : Nat}

/-- The fiber that started a fiber. -/
def parent? (s : Schedule) (i : Nat) : Option Nat := (s.fibers[i]?).bind Fiber.parent

/-- Whether a fiber has to stop when it is resumed. -/
def isTold (s : Schedule) (i : Nat) : Bool := (s.fibers[i]?).any Fiber.cancelled

/-- How a fiber has ended, if it has. -/
def ending? (s : Schedule) (i : Nat) : Option Ending :=
  match s.state? i with
  | some (.ended e) => some e
  | _ => none

/-- The schedule in another world. -/
def setWorld (world : World) (s : Schedule) : Schedule := { s with world }

theorem ending?_eq_some_iff {e : Ending} : s.ending? i = some e ↔ s.state? i = some (.ended e) := by
  unfold ending?
  split <;> simp_all

theorem ending?_congr {s' : Schedule} (h : s'.state? i = s.state? i) : s'.ending? i = s.ending? i := by
  simp only [ending?, h]

theorem hasEnded_iff : s.hasEnded i = true ↔ ∃ e, s.state? i = some (.ended e) := by
  unfold hasEnded
  split <;> simp_all

theorem hasEnded_eq_isSome : s.hasEnded i = (s.ending? i).isSome := by
  unfold hasEnded ending?
  split <;> simp_all

theorem hasEnded_of_state {e : Ending} (h : s.state? i = some (.ended e)) : s.hasEnded i = true :=
  hasEnded_iff.2 ⟨e, h⟩

theorem isClearing_iff :
    s.isClearing i = true ↔ ∃ cs left e b, s.state? i = some (.clearing cs left e b) := by
  unfold isClearing
  split <;> simp_all

theorem lt_size_of_state? {st : FiberState} (h : s.state? i = some st) : i < s.fibers.size := by
  unfold state? at h
  cases hf : s.fibers[i]? with
  | none => simp [hf] at h
  | some f => exact (Array.getElem?_eq_some_iff.1 hf).1

theorem lt_size_of_parent? {p : Nat} (h : s.parent? i = some p) : i < s.fibers.size := by
  unfold parent? at h
  cases hf : s.fibers[i]? with
  | none => simp [hf] at h
  | some f => exact (Array.getElem?_eq_some_iff.1 hf).1

theorem exists_state? (h : i < s.fibers.size) : ∃ st, s.state? i = some st :=
  ⟨s.fibers[i].state, by simp [state?, Array.getElem?_eq_getElem h]⟩

theorem fiber_eq {parent : Option Nat} {st : FiberState} {told : Bool}
    (h : s.fibers[i]? = some ⟨parent, st, told⟩) :
    s.parent? i = parent ∧ s.state? i = some st ∧ s.isTold i = told := by
  simp [parent?, state?, isTold, h]

/-! ## Single changes -/

theorem fibers_setState (st : FiberState) :
    (s.setState i st).fibers[j]? =
      if i = j then (s.fibers[j]?).map fun f => { f with state := st } else s.fibers[j]? :=
  Array.getElem?_modify

theorem fibers_setCancelled (told : Bool) :
    (s.setCancelled i told).fibers[j]? =
      if i = j then (s.fibers[j]?).map fun f => { f with cancelled := told } else s.fibers[j]? :=
  Array.getElem?_modify

@[simp] theorem size_setState (st : FiberState) :
    (s.setState i st).fibers.size = s.fibers.size := by
  simp [setState]

@[simp] theorem size_setCancelled (told : Bool) :
    (s.setCancelled i told).fibers.size = s.fibers.size := by
  simp [setCancelled]

@[simp] theorem state?_setState_self (st : FiberState) :
    (s.setState i st).state? i = (s.state? i).map fun _ => st := by
  simp only [state?, fibers_setState, if_pos, Option.map_map]
  rfl

theorem state?_setState_of_ne (h : j ≠ i) (st : FiberState) :
    (s.setState i st).state? j = s.state? j := by
  simp only [state?, fibers_setState, if_neg h.symm]

@[simp] theorem parent?_setState (st : FiberState) : (s.setState i st).parent? j = s.parent? j := by
  unfold parent?
  rw [fibers_setState]
  split
  · cases s.fibers[j]? <;> rfl
  · rfl

@[simp] theorem isTold_setState (st : FiberState) : (s.setState i st).isTold j = s.isTold j := by
  unfold isTold
  rw [fibers_setState]
  split
  · cases s.fibers[j]? <;> rfl
  · rfl

@[simp] theorem state?_setCancelled (told : Bool) :
    (s.setCancelled i told).state? j = s.state? j := by
  unfold state?
  rw [fibers_setCancelled]
  split
  · cases s.fibers[j]? <;> rfl
  · rfl

@[simp] theorem parent?_setCancelled (told : Bool) :
    (s.setCancelled i told).parent? j = s.parent? j := by
  unfold parent?
  rw [fibers_setCancelled]
  split
  · cases s.fibers[j]? <;> rfl
  · rfl

theorem isTold_setCancelled_self : (s.setCancelled i false).isTold i = false := by
  unfold isTold
  rw [fibers_setCancelled, if_pos rfl]
  cases s.fibers[i]? <;> rfl

theorem isTold_setCancelled_of_ne (h : j ≠ i) (told : Bool) :
    (s.setCancelled i told).isTold j = s.isTold j := by
  unfold isTold
  rw [fibers_setCancelled, if_neg h.symm]

section
variable (event : Event) (seconds : Binary64) (world : World) (told : Bool) (st : FiberState)

@[simp] theorem state?_push : (s.push event).state? j = s.state? j := rfl
@[simp] theorem state?_dropTimer : (s.dropTimer event).state? j = s.state? j := rfl
@[simp] theorem state?_setTimer : (s.setTimer seconds event).state? j = s.state? j := rfl
@[simp] theorem state?_setWorld : (s.setWorld world).state? j = s.state? j := rfl
@[simp] theorem parent?_push : (s.push event).parent? j = s.parent? j := rfl
@[simp] theorem parent?_dropTimer : (s.dropTimer event).parent? j = s.parent? j := rfl
@[simp] theorem parent?_setTimer : (s.setTimer seconds event).parent? j = s.parent? j := rfl
@[simp] theorem parent?_setWorld : (s.setWorld world).parent? j = s.parent? j := rfl
@[simp] theorem isTold_push : (s.push event).isTold j = s.isTold j := rfl
@[simp] theorem isTold_dropTimer : (s.dropTimer event).isTold j = s.isTold j := rfl
@[simp] theorem isTold_setTimer : (s.setTimer seconds event).isTold j = s.isTold j := rfl
@[simp] theorem isTold_setWorld : (s.setWorld world).isTold j = s.isTold j := rfl
@[simp] theorem queue_setState : (s.setState i st).queue = s.queue := rfl
@[simp] theorem queue_setCancelled : (s.setCancelled i told).queue = s.queue := rfl
@[simp] theorem queue_push : (s.push event).queue = s.queue.push event := rfl
@[simp] theorem queue_setTimer : (s.setTimer seconds event).queue = s.queue := rfl
@[simp] theorem queue_dropTimer : (s.dropTimer event).queue = s.queue := rfl
@[simp] theorem queue_setWorld : (s.setWorld world).queue = s.queue := rfl
@[simp] theorem timers_setState : (s.setState i st).timers = s.timers := rfl
@[simp] theorem timers_setCancelled : (s.setCancelled i told).timers = s.timers := rfl
@[simp] theorem timers_push : (s.push event).timers = s.timers := rfl
@[simp] theorem timers_setWorld : (s.setWorld world).timers = s.timers := rfl
@[simp] theorem world_setState : (s.setState i st).world = s.world := rfl
@[simp] theorem world_setCancelled : (s.setCancelled i told).world = s.world := rfl
@[simp] theorem world_push : (s.push event).world = s.world := rfl
@[simp] theorem world_setTimer : (s.setTimer seconds event).world = s.world := rfl
@[simp] theorem world_dropTimer : (s.dropTimer event).world = s.world := rfl
@[simp] theorem world_setWorld : (s.setWorld world).world = world := rfl
@[simp] theorem size_push : (s.push event).fibers.size = s.fibers.size := rfl
@[simp] theorem size_setTimer : (s.setTimer seconds event).fibers.size = s.fibers.size := rfl
@[simp] theorem size_dropTimer : (s.dropTimer event).fibers.size = s.fibers.size := rfl
@[simp] theorem size_setWorld : (s.setWorld world).fibers.size = s.fibers.size := rfl
@[simp] theorem clock_setState : (s.setState i st).clock = s.clock := rfl
@[simp] theorem clock_setCancelled : (s.setCancelled i told).clock = s.clock := rfl
@[simp] theorem clock_push : (s.push event).clock = s.clock := rfl
@[simp] theorem clock_dropTimer : (s.dropTimer event).clock = s.clock := rfl
@[simp] theorem clock_setTimer : (s.setTimer seconds event).clock = s.clock := rfl
@[simp] theorem clock_setWorld : (s.setWorld world).clock = s.clock := rfl

end

@[simp] theorem state?_enqueue_self (r : Resumption) :
    (s.enqueue i r).state? i = (s.state? i).map fun _ => .queued r := by
  simp [enqueue]

theorem state?_enqueue_of_ne (h : j ≠ i) (r : Resumption) :
    (s.enqueue i r).state? j = s.state? j := by
  simp [enqueue, state?_setState_of_ne h]

@[simp] theorem parent?_enqueue (r : Resumption) : (s.enqueue i r).parent? j = s.parent? j := by
  simp [enqueue]

@[simp] theorem isTold_enqueue (r : Resumption) : (s.enqueue i r).isTold j = s.isTold j := by
  simp [enqueue]

@[simp] theorem queue_enqueue (r : Resumption) :
    (s.enqueue i r).queue = s.queue.push (.resume i) := rfl

@[simp] theorem timers_enqueue (r : Resumption) : (s.enqueue i r).timers = s.timers := rfl
@[simp] theorem world_enqueue (r : Resumption) : (s.enqueue i r).world = s.world := rfl
@[simp] theorem clock_enqueue (r : Resumption) : (s.enqueue i r).clock = s.clock := rfl

@[simp] theorem size_enqueue (r : Resumption) :
    (s.enqueue i r).fibers.size = s.fibers.size := by
  simp [enqueue]

/-! ## Ends -/

/-- What a fiber that ends reports. -/
def endReports (s : Schedule) (i : Nat) : List Event :=
  match s.parent? i with
  | none => []
  | some p => .report i false :: if s.isClearing p then [.report i true] else []

theorem finish_eq (e : Ending) (hparent : s.parent? i ≠ some i) :
    s.finish i e =
      { s.setState i (.ended e) with queue := s.queue ++ (s.endReports i).toArray } := by
  have hp : (((s.setState i (.ended e)).fibers[i]?).bind Fiber.parent) = s.parent? i :=
    parent?_setState _
  unfold finish endReports
  simp only [hp]
  cases h : s.parent? i with
  | none => simp [setState]
  | some p =>
    have hne : p ≠ i := by
      rintro rfl
      exact hparent h
    -- The first report does not change what the parent is doing.
    have hclearing : ((s.setState i (.ended e)).push (.report i false)).isClearing p =
        s.isClearing p := by
      unfold isClearing
      rw [state?_push, state?_setState_of_ne hne]
    simp only [hclearing]
    split
    · simp only [push, setState, Schedule.mk.injEq, and_true, true_and]
      exact Array.ext' (by simp)
    · simp [push, setState]

section
variable {e : Ending} (hparent : s.parent? i ≠ some i)
include hparent

theorem state?_finish_self : (s.finish i e).state? i = (s.state? i).map fun _ => .ended e := by
  rw [finish_eq e hparent]
  exact state?_setState_self _

theorem state?_finish_of_ne (h : j ≠ i) : (s.finish i e).state? j = s.state? j := by
  rw [finish_eq e hparent]
  exact state?_setState_of_ne h _

theorem parent?_finish : (s.finish i e).parent? j = s.parent? j := by
  rw [finish_eq e hparent]
  exact parent?_setState _

theorem isTold_finish : (s.finish i e).isTold j = s.isTold j := by
  rw [finish_eq e hparent]
  exact isTold_setState _

theorem queue_finish :
    (s.finish i e).queue.toList = s.queue.toList ++ s.endReports i := by
  simp [finish_eq e hparent]

theorem timers_finish : (s.finish i e).timers = s.timers := by
  simp [finish_eq e hparent]

theorem world_finish : (s.finish i e).world = s.world := by
  simp [finish_eq e hparent]

theorem size_finish : (s.finish i e).fibers.size = s.fibers.size := by
  simp [finish_eq e hparent]

end

/-! ## Forks -/

/-- The fibers that a fork starts. -/
def forked (s : Schedule) (branches : List Process) : List Nat :=
  (List.range branches.length).map (s.fibers.size + ·)

theorem mem_forked {branches : List Process} {c : Nat} :
    c ∈ s.forked branches ↔ s.fibers.size ≤ c ∧ c < s.fibers.size + branches.length := by
  simp only [forked, List.mem_map, List.mem_range]
  constructor
  · rintro ⟨k, hk, rfl⟩
    omega
  · rintro ⟨hle, hlt⟩
    exact ⟨c - s.fibers.size, by omega, by omega⟩

theorem nodup_forked (branches : List Process) : (s.forked branches).Nodup :=
  List.Nodup.map (fun _ _ h => Nat.add_left_cancel h) List.nodup_range

@[simp] theorem length_forked (branches : List Process) :
    (s.forked branches).length = branches.length := by
  simp [forked]

section
variable {branches : List Process} {next : Unit → Process}

theorem fork_eq : s.fork i branches next =
    Schedule.setState i (.joining (s.forked branches) branches.length next)
      { s with
        fibers := s.fibers ++
          (branches.map fun p => Fiber.mk (some i) (.queued (.go [] fun _ => p)) false).toArray
        queue := s.queue ++ ((s.forked branches).map Event.resume).toArray } := by
  have happend : ∀ {α : Type} (xs : Array α) (l : List α), xs ++ l = xs ++ l.toArray :=
    fun _ _ => Array.ext' (by simp)
  simp only [fork, happend, List.length_map, List.length_range, forked]

theorem fibers_fork_old (h : j < s.fibers.size) (hne : j ≠ i) :
    (s.fork i branches next).fibers[j]? = s.fibers[j]? := by
  rw [fork_eq, fibers_setState, if_neg hne.symm]
  exact Array.getElem?_append_left h

theorem fibers_fork_new {k : Nat} (h : k < branches.length) (hi : i < s.fibers.size) :
    (s.fork i branches next).fibers[s.fibers.size + k]? =
      some ⟨some i, .queued (.go [] fun _ => branches[k]), false⟩ := by
  rw [fork_eq, fibers_setState, if_neg (by omega)]
  simp only
  rw [Array.getElem?_append_right (by omega)]
  simp [h]

theorem fibers_fork_self (hi : i < s.fibers.size) : (s.fork i branches next).fibers[i]? =
    (s.fibers[i]?).map fun f =>
      { f with state := .joining (s.forked branches) branches.length next } := by
  rw [fork_eq, fibers_setState, if_pos rfl]
  simp only
  rw [Array.getElem?_append_left hi]

theorem state?_fork_self (hi : i < s.fibers.size) : (s.fork i branches next).state? i =
    some (.joining (s.forked branches) branches.length next) := by
  simp [state?, fibers_fork_self hi, Array.getElem?_eq_getElem hi]

theorem state?_fork_old (h : j < s.fibers.size) (hne : j ≠ i) :
    (s.fork i branches next).state? j = s.state? j := by
  simp only [state?, fibers_fork_old h hne]

theorem parent?_fork_old (hi : i < s.fibers.size) (h : j < s.fibers.size) :
    (s.fork i branches next).parent? j = s.parent? j := by
  by_cases hne : j = i
  · subst hne
    simp [parent?, fibers_fork_self hi, Array.getElem?_eq_getElem hi]
  · simp only [parent?, fibers_fork_old h hne]

theorem isTold_fork_self (hi : i < s.fibers.size) :
    (s.fork i branches next).isTold i = s.isTold i := by
  simp [isTold, fibers_fork_self hi, Array.getElem?_eq_getElem hi]

/-- The fibers that a fork starts are about to run the branches. -/
theorem fork_new (next : Unit → Process) (hi : i < s.fibers.size) {k : Nat}
    (hk : k < branches.length) :
    (s.fork i branches next).parent? (s.fibers.size + k) = some i ∧
      (s.fork i branches next).state? (s.fibers.size + k) =
        some (.queued (.go [] fun _ => branches[k])) ∧
      (s.fork i branches next).isTold (s.fibers.size + k) = false :=
  fiber_eq (fibers_fork_new hk hi)

@[simp] theorem queue_fork : (s.fork i branches next).queue.toList =
    s.queue.toList ++ (s.forked branches).map Event.resume := by
  rw [fork_eq]
  simp

@[simp] theorem timers_fork : (s.fork i branches next).timers = s.timers := rfl
@[simp] theorem world_fork : (s.fork i branches next).world = s.world := rfl

@[simp] theorem size_fork :
    (s.fork i branches next).fibers.size = s.fibers.size + branches.length := by
  rw [fork_eq, size_setState]
  simp

/-- After a fork there are the fiber that waits, the fibers that were there, and those that are
about to run the branches. -/
theorem state?_fork_cases {st : FiberState} (hi : i < s.fibers.size)
    (h : (s.fork i branches next).state? j = some st) :
    (j = i ∧ st = .joining (s.forked branches) branches.length next) ∨
      (j < s.fibers.size ∧ j ≠ i ∧ s.state? j = some st) ∨
      ∃ k, ∃ hk : k < branches.length, j = s.fibers.size + k ∧
        st = .queued (.go [] fun _ => branches[k]) := by
  by_cases hj : j < s.fibers.size
  · by_cases hji : j = i
    · subst hji
      rw [state?_fork_self hi] at h
      cases h
      exact .inl ⟨rfl, rfl⟩
    · rw [state?_fork_old hj hji] at h
      exact .inr (.inl ⟨hj, hji, h⟩)
  · have hlt := lt_size_of_state? h
    rw [size_fork] at hlt
    obtain ⟨k, rfl⟩ := Nat.exists_eq_add_of_le (Nat.le_of_not_lt hj)
    have hk : k < branches.length := Nat.lt_of_add_lt_add_left hlt
    rw [(fork_new next hi hk).2.1] at h
    cases h
    exact .inr (.inr ⟨k, hk, rfl, rfl⟩)

/-- The fibers that a fork starts are children of the one that forks, and nothing else becomes a
child. -/
theorem parent?_fork_iff {p : Nat} (hi : i < s.fibers.size) :
    (s.fork i branches next).parent? j = some p ↔
      s.parent? j = some p ∨ (j ∈ s.forked branches ∧ p = i) := by
  by_cases hj : j < s.fibers.size
  · have hnot : j ∉ s.forked branches := fun hin => by
      have := (mem_forked.1 hin).1
      omega
    rw [parent?_fork_old hi hj]
    simp [hnot]
  · have hnone : s.parent? j ≠ some p := fun hp => hj (lt_size_of_parent? hp)
    constructor
    · intro hp
      have hlt := lt_size_of_parent? hp
      rw [size_fork] at hlt
      obtain ⟨k, rfl⟩ := Nat.exists_eq_add_of_le (Nat.le_of_not_lt hj)
      rw [(fork_new next hi (Nat.lt_of_add_lt_add_left hlt)).1] at hp
      exact .inr ⟨mem_forked.2 ⟨Nat.le_of_not_lt hj, hlt⟩, (Option.some.inj hp).symm⟩
    · rintro (hp | ⟨hin, rfl⟩)
      · exact absurd hp hnone
      · obtain ⟨hle, hlt⟩ := mem_forked.1 hin
        obtain ⟨k, rfl⟩ := Nat.exists_eq_add_of_le hle
        exact (fork_new next hi (Nat.lt_of_add_lt_add_left hlt)).1

/-- No fiber ends by a fork. -/
theorem ending?_fork {r : Resumption} (hstate : s.state? i = some (.queued r)) :
    (s.fork i branches next).ending? j = s.ending? j := by
  have hi := lt_size_of_state? hstate
  refine Option.ext fun e => ?_
  rw [ending?_eq_some_iff, ending?_eq_some_iff]
  constructor
  · intro h
    rcases state?_fork_cases hi h with ⟨-, hst⟩ | ⟨-, -, hold⟩ | ⟨k, hk, -, hst⟩
    · cases hst
    · exact hold
    · cases hst
  · intro h
    -- The fiber that forks has not ended, and a fiber that has is not a new one.
    have hne : j ≠ i := by
      rintro rfl
      rw [hstate] at h
      cases h
    rw [state?_fork_old (lt_size_of_state? h) hne]
    exact h

end

/-! ## Clearing away -/

/-- The reports of those children that have ended already. -/
def lateReports (s : Schedule) (children : List Nat) : List Event :=
  (children.filter s.hasEnded).map fun c => .report c true

theorem foldl_push_reports (children : List Nat) :
    ∀ s : Schedule,
      children.foldl (fun s c => if s.hasEnded c then s.push (.report c true) else s) s =
        { s with queue := s.queue ++ (s.lateReports children).toArray } := by
  induction children with
  | nil => intro s; simp [lateReports]
  | cons c rest ih =>
    intro s
    rw [List.foldl_cons, ih]
    by_cases h : s.hasEnded c
    · have hsame : (s.push (.report c true)).lateReports rest = s.lateReports rest := rfl
      rw [if_pos h, hsame]
      simp only [push, lateReports, h, List.filter_cons_of_pos, List.map_cons, Schedule.mk.injEq,
        and_true, true_and]
      exact Array.ext' (by simp)
    · simp [h, lateReports]

/-- Clearing children away tells them to stop, takes the reports of those that have ended, and
waits. -/
theorem clear_eq (children : List Nat) (e : Ending) : s.clear i children e =
    Schedule.setState i (.clearing children children.length e false)
      { s.cancelAll children with
        queue := (s.cancelAll children).queue ++
          ((s.cancelAll children).lateReports children).toArray } := by
  unfold clear
  simp only [foldl_push_reports]

/-! ## Events -/

/-- Whether an event has nothing to act on. -/
def Idle (s : Schedule) : Event → Prop
  | .resume i => ∀ r, s.state? i ≠ some (.queued r)
  | .ring i => ∀ next, s.state? i ≠ some (.asleep next)
  | .report c false => ∀ p e cs left next, s.parent? c = some p → s.state? c = some (.ended e) →
      s.state? p ≠ some (.joining cs left next)
  | .report c true => ∀ p e cs left last told, s.parent? c = some p →
      s.state? c = some (.ended e) → s.state? p ≠ some (.clearing cs left last told)
  | _ => False

/-- Everything that letting an event happen can come to. -/
inductive Happens (env : Surroundings) (transport : Transport) (s : Schedule) :
    Event → Schedule → Prop where
  /-- A fiber ends as soon as it is resumed. -/
  | stops {i : Nat} {r : Resumption} {e : Ending} (hstate : s.state? i = some (.queued r))
      (hend : (∃ next, s.isTold i = true ∧ r = .go [] next ∧ e = .cancelled) ∨
        ∃ last, r = .stop last ∧ e = last.unless (s.isTold i)) :
      Happens env transport s (.resume i) ((s.setCancelled i false).finish i e)
  /-- A fiber clears its children away as soon as it is resumed. -/
  | clears {i : Nat} {r : Resumption} {cs : List Nat} {e : Ending}
      (hstate : s.state? i = some (.queued r))
      (hend : (∃ next, s.isTold i = true ∧ r = .go cs next ∧ cs ≠ [] ∧ e = .cancelled) ∨
        ∃ last, r = .clear cs last ∧ e = last.unless (s.isTold i)) :
      Happens env transport s (.resume i) ((s.setCancelled i false).clear i cs e)
  /-- A fiber runs to its end. -/
  | ends {i : Nat} {cs : List Nat} {next : Unit → Process} {w : World} {e : Ending}
      (hstate : s.state? i = some (.queued (.go cs next))) (htold : s.isTold i = false)
      (hrun : (next ()).advance env transport s.world = (w, .ended e)) :
      Happens env transport s (.resume i) (((s.setCancelled i false).setWorld w).finish i e)
  /-- A fiber runs until it falls asleep. -/
  | sleeps {i : Nat} {cs : List Nat} {next next' : Unit → Process} {w : World}
      {seconds : Binary64} (hstate : s.state? i = some (.queued (.go cs next)))
      (htold : s.isTold i = false)
      (hrun : (next ()).advance env transport s.world = (w, .asleep seconds next')) :
      Happens env transport s (.resume i)
        ((((s.setCancelled i false).setWorld w).setTimer seconds (.ring i)).setState i
          (.asleep next'))
  /-- A fiber runs until it forks. -/
  | forks {i : Nat} {cs : List Nat} {next next' : Unit → Process} {w : World}
      {branches : List Process} (hstate : s.state? i = some (.queued (.go cs next)))
      (htold : s.isTold i = false)
      (hrun : (next ()).advance env transport s.world = (w, .forked branches next')) :
      Happens env transport s (.resume i)
        (((s.setCancelled i false).setWorld w).fork i branches next')
  /-- A sleeping fiber is woken. -/
  | wakes {i : Nat} {next : Unit → Process} (hstate : s.state? i = some (.asleep next)) :
      Happens env transport s (.ring i) (s.enqueue i (.go [] next))
  /-- The last child for which a fiber waits has finished. -/
  | joins {c p : Nat} {context : Context} {cs : List Nat} {left : Nat} {next : Unit → Process}
      (hchild : s.state? c = some (.ended (.finished context))) (hparent : s.parent? c = some p)
      (hstate : s.state? p = some (.joining cs left next)) (hleft : left ≤ 1) :
      Happens env transport s (.report c false) (s.enqueue p (.go cs next))
  /-- A child for which a fiber waits has finished, and there are others. -/
  | counts {c p : Nat} {context : Context} {cs : List Nat} {left : Nat} {next : Unit → Process}
      (hchild : s.state? c = some (.ended (.finished context))) (hparent : s.parent? c = some p)
      (hstate : s.state? p = some (.joining cs left next)) (hleft : 1 < left) :
      Happens env transport s (.report c false) (s.setState p (.joining cs (left - 1) next))
  /-- A child for which a fiber waits has failed or was cancelled. -/
  | breaks {c p : Nat} {e : Ending} {cs : List Nat} {left : Nat} {next : Unit → Process}
      (hchild : s.state? c = some (.ended e)) (hfailed : ∀ context, e ≠ .finished context)
      (hparent : s.parent? c = some p) (hstate : s.state? p = some (.joining cs left next)) :
      Happens env transport s (.report c false) (s.enqueue p (.clear cs e))
  /-- The last child that a fiber clears away has ended. -/
  | cleared {c p : Nat} {e last : Ending} {cs : List Nat} {left : Nat} {told : Bool}
      (hchild : s.state? c = some (.ended e)) (hparent : s.parent? c = some p)
      (hstate : s.state? p = some (.clearing cs left last told)) (hleft : left ≤ 1) :
      Happens env transport s (.report c true) (s.enqueue p (.stop (last.unless told)))
  /-- A child that a fiber clears away has ended, and there are others. -/
  | discounts {c p : Nat} {e last : Ending} {cs : List Nat} {left : Nat} {told : Bool}
      (hchild : s.state? c = some (.ended e)) (hparent : s.parent? c = some p)
      (hstate : s.state? p = some (.clearing cs left last told)) (hleft : 1 < left) :
      Happens env transport s (.report c true)
        (s.setState p (.clearing cs (left - 1) last told))
  /-- The time for the run is over. -/
  | expires : Happens env transport s .expire (s.push .cutOff)
  /-- The run is told to stop. -/
  | cuts : Happens env transport s .cutOff (s.cancel s.fibers.size main).2
  | nothing {event : Event} (hidle : s.Idle event) : Happens env transport s event s

variable {env : Surroundings} {transport : Transport}

theorem happens_resume (i : Nat) :
    Happens env transport s (.resume i) (s.resume env transport i) := by
  unfold resume
  split
  · rename_i parent r told hf
    obtain ⟨-, hstate, htold⟩ := fiber_eq hf
    subst htold
    cases r with
    | go cs next =>
      simp only
      by_cases htold : s.isTold i
      · rw [if_pos htold]
        cases cs with
        | nil => exact .stops hstate (Or.inl ⟨next, htold, rfl, rfl⟩)
        | cons c rest =>
          exact .clears hstate (Or.inl ⟨next, htold, rfl, List.cons_ne_nil c rest, rfl⟩)
      · rw [if_neg htold]
        have hnot : s.isTold i = false := by simpa using htold
        unfold continueWith
        rw [world_setCancelled]
        rcases hrun : (next ()).advance env transport s.world with ⟨w, e | ⟨seconds, next'⟩ |
          ⟨branches, next'⟩⟩
        · exact .ends hstate hnot hrun
        · exact .sleeps hstate hnot hrun
        · exact .forks hstate hnot hrun
    | clear cs e => exact .clears hstate (Or.inr ⟨e, rfl, rfl⟩)
    | stop e => exact .stops hstate (Or.inr ⟨e, rfl, rfl⟩)
  · rename_i hno
    -- A fiber that is not about to be resumed is left alone.
    refine .nothing fun r hr => ?_
    unfold state? at hr
    obtain ⟨f, hf, hfr⟩ := Option.map_eq_some_iff.1 hr
    obtain ⟨parent, st, told⟩ := f
    simp only at hfr
    subst hfr
    exact hno parent r told hf

theorem happens_report (c : Nat) (clearing : Bool) :
    Happens env transport s (.report c clearing) (s.report c clearing) := by
  unfold report
  split
  · rename_i p e told hf
    obtain ⟨hparent, hchild, -⟩ := fiber_eq hf
    split
    · rename_i cs left next hstate
      unfold joinReport
      cases e with
      | finished context =>
        simp only
        split
        · exact .joins hchild hparent hstate (by assumption)
        · exact .counts hchild hparent hstate (by omega)
      | failed fault => exact .breaks hchild (by simp) hparent hstate
      | cancelled => exact .breaks hchild (by simp) hparent hstate
    · rename_i cs left last told' hstate
      split
      · exact .cleared hchild hparent hstate (by assumption)
      · exact .discounts hchild hparent hstate (by omega)
    · rename_i clearing _ _ hjoining hclearing
      refine .nothing ?_
      cases clearing with
      | false =>
        intro p' e' cs left next hparent' _ hstate
        rw [hparent] at hparent'
        cases hparent'
        exact hjoining cs left next hstate rfl
      | true =>
        intro p' e' cs left last told' hparent' _ hstate
        rw [hparent] at hparent'
        cases hparent'
        exact hclearing cs left last told' hstate rfl
  · rename_i hno
    -- There is no such fiber, or it has no parent, or it has not ended.
    have hnone : ∀ p e, s.parent? c = some p → s.state? c ≠ some (.ended e) := by
      intro p e hparent hstate
      obtain ⟨f, hf, hfp⟩ := Option.bind_eq_some_iff.1 hparent
      obtain ⟨parent, st, told⟩ := f
      obtain ⟨-, hst, -⟩ := fiber_eq hf
      rw [hst] at hstate
      cases hstate
      simp only at hfp
      subst hfp
      exact hno p e told hf
    refine .nothing ?_
    cases clearing with
    | false => exact fun p e _ _ _ hparent hstate => absurd hstate (hnone p e hparent)
    | true => exact fun p e _ _ _ _ hparent hstate => absurd hstate (hnone p e hparent)

/-- Letting an event happen comes to one of the cases. -/
theorem happens_handle (event : Event) :
    Happens env transport s event (s.handle env transport event) := by
  cases event with
  | resume i => exact happens_resume i
  | ring i =>
    simp only [handle]
    split
    · rename_i next hstate
      exact .wakes hstate
    · rename_i hno
      exact .nothing fun next hstate => hno next hstate
  | report c clearing => exact happens_report c clearing
  | expire => exact .expires
  | cutOff => exact .cuts

end Schedule

end Workgraph
