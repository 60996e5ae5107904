import Workgraph.Proofs.Engine.Cleanup
/-!
# What the fibers of a run stand for

The fibers of a schedule make up one process: a fiber that waits for its children, or clears them
away, stands for the fork of what they stand for (`Schedule.Stands`). Letting an event happen moves
the process of the run in its world (`Schedule.stands_happens`), whatever has been told to stop.

A fiber that has been told to stop ends while its process could still go on, and then it stands for
that process for good. Whether this may be so is the flag of `Schedule.Stands`: a fiber is free if
neither it nor a fiber above it has been told to stop. Under a fiber that clears its children away
none is free.
-/

namespace Workgraph

/-- With an ending a fiber comes to stand for a process. -/
inductive Ending.Fits : Ending → Bool → Process → Prop where
  | finished {free : Bool} {context : Context} : Fits (.finished context) free (.done context)
  | failed {free : Bool} {f : Fault} : Fits (.failed f) free (.fail f)
  /-- What has been told to stop has come to nothing by itself. -/
  | cancelled {q : Process} : Fits .cancelled false q

/-- With an ending a fork of some branches is cleared away. -/
inductive Ending.Breaks : Ending → Bool → List Process → Prop where
  | failed {free : Bool} {f : Fault} {ps : List Process} (hf : .fail f ∈ ps) :
      Breaks (.failed f) free ps
  | cancelled {ps : List Process} : Breaks .cancelled false ps

/-- What a fiber stands for that waits for no children. -/
inductive FiberState.Rests : FiberState → Bool → Process → Prop where
  | ready {free : Bool} {next : Unit → Process} : Rests (.queued (.go [] next)) free (next ())
  | asleep {free : Bool} {next : Unit → Process} : Rests (.asleep next) free (next ())
  | stopping {e : Ending} {free : Bool} {q : Process} (he : e.Fits free q) :
      Rests (.queued (.stop e)) free q
  | ended {e : Ending} {free : Bool} {q : Process} (he : e.Fits free q) : Rests (.ended e) free q

/-- A fiber waits for the branches of a fork, and then goes on. The second flag is that of its
children. -/
inductive FiberState.Waits :
    FiberState → Bool → Bool → List Nat → List Process → (Unit → Process) → Prop where
  | joining {free : Bool} {cs : List Nat} {left : Nat} {ps : List Process}
      {next : Unit → Process} : Waits (.joining cs left next) free free cs ps next
  | joined {free : Bool} {cs : List Nat} {ps : List Process} {next : Unit → Process}
      (hdone : ∀ b ∈ ps, ∃ context, b = .done context) :
      Waits (.queued (.go cs next)) free free cs ps next
  /-- The children of a fork that has failed may go on until they are told to stop. -/
  | breaking {free : Bool} {cs : List Nat} {e : Ending} {ps : List Process}
      {next : Unit → Process} (he : e.Breaks free ps) :
      Waits (.queued (.clear cs e)) free free cs ps next
  | clearing {free : Bool} {cs : List Nat} {left : Nat} {e : Ending} {told : Bool}
      {ps : List Process} {next : Unit → Process} (he : e.Breaks free ps)
      (htold : told = true → free = false) : Waits (.clearing cs left e told) free false cs ps next

section
variable {e : Ending} {free told : Bool} {q : Process} {ps : List Process}

theorem Ending.Fits.weaken (h : e.Fits free q) : e.Fits false q := by
  cases h with
  | finished => exact .finished
  | failed => exact .failed
  | cancelled => exact .cancelled

theorem Ending.Fits.unless (h : e.Fits free q) (htold : told = true → free = false) :
    (e.unless told).Fits free q := by
  cases told with
  | true =>
    rw [htold rfl]
    exact .cancelled
  | false => exact h

/-- The ending of a branch breaks the fork, unless the branch has finished. -/
theorem Ending.Fits.breaks (h : e.Fits free q) (hne : ∀ context, e ≠ .finished context)
    (hq : q ∈ ps) : e.Breaks free ps := by
  cases h with
  | @finished free context => exact absurd rfl (hne context)
  | failed => exact .failed hq
  | cancelled => exact .cancelled

theorem Ending.Breaks.weaken (h : e.Breaks free ps) : e.Breaks false ps := by
  cases h with
  | failed hf => exact .failed hf
  | cancelled => exact .cancelled

theorem Ending.Breaks.unless (h : e.Breaks free ps) (htold : told = true → free = false) :
    (e.unless told).Breaks free ps := by
  cases told with
  | true =>
    rw [htold rfl]
    exact .cancelled
  | false => exact h

variable {env : Surroundings} {transport : Transport} {w w' : World} {next : Unit → Process}

/-- A fork that is cleared away is aborted if a branch has failed. -/
theorem Ending.Breaks.exists_fits (h : e.Breaks free ps) (w : World) : ∃ q, e.Fits free q ∧
    Process.Runs env transport (w, .fork ps next) (w, q) := by
  cases h with
  | failed hf => exact ⟨_, .failed, .move (.abort hf)⟩
  | cancelled => exact ⟨_, .cancelled, .refl _⟩

/-- A branch that has failed stays so, whichever branch moves. -/
theorem Ending.Breaks.set (h : e.Breaks free ps) {k : Nat} {q' : Process} (hk : ps[k]? = some q)
    (hruns : Process.Runs env transport (w, q) (w', q')) : e.Breaks free (ps.set k q') := by
  cases h with
  | @failed free f ps hf =>
    refine .failed ?_
    obtain ⟨l, hl⟩ := List.mem_iff_getElem?.1 hf
    by_cases hlk : k = l
    · subst hlk
      rw [hk] at hl
      cases hl
      rw [hruns.of_fail]
      exact List.mem_set (List.getElem?_eq_some_iff.1 hk).1 _
    · rw [← List.getElem?_set_ne hlk] at hl
      exact List.mem_of_getElem? hl
  | cancelled => exact .cancelled

variable {st : FiberState} {kids : Bool} {cs : List Nat}

theorem FiberState.Rests.weaken (h : st.Rests free q) : st.Rests false q := by
  cases h with
  | ready => exact .ready
  | asleep => exact .asleep
  | stopping he => exact .stopping he.weaken
  | ended he => exact .ended he.weaken

theorem FiberState.Waits.weaken (h : st.Waits free kids cs ps next) :
    st.Waits false false cs ps next := by
  cases h with
  | joining => exact .joining
  | joined hdone => exact .joined hdone
  | breaking he => exact .breaking he.weaken
  | clearing he htold => exact .clearing he.weaken fun _ => rfl

theorem FiberState.Waits.children_eq (h : st.Waits free kids cs ps next) : st.children = cs := by
  cases h <;> rfl

/-- A fiber goes on waiting when a branch moves. -/
theorem FiberState.Waits.set (h : st.Waits free kids cs ps next) {k : Nat} {q' : Process}
    (hk : ps[k]? = some q) (hruns : Process.Runs env transport (w, q) (w', q')) :
    st.Waits free kids cs (ps.set k q') next := by
  cases h with
  | joining => exact .joining
  | joined hdone =>
    refine .joined fun b hb => ?_
    rcases List.mem_or_eq_of_mem_set hb with hold | rfl
    · exact hdone b hold
    · obtain ⟨context, rfl⟩ := hdone q (List.mem_of_getElem? hk)
      exact ⟨context, hruns.of_done⟩
  | breaking he => exact .breaking (he.set hk hruns)
  | clearing he htold => exact .clearing (he.set hk hruns) htold

end

namespace Schedule

variable {pending : List Event} {s s' : Schedule} {i j c p : Nat}
variable {env : Surroundings} {transport : Transport}
variable {st : FiberState} {free kids : Bool} {q : Process} {cs : List Nat} {ps : List Process}

/-- The process for which a fiber stands. -/
inductive Stands (s : Schedule) : Bool → Nat → Process → Prop where
  | rests {free : Bool} {i : Nat} {st : FiberState} {q : Process} (hstate : s.state? i = some st)
      (htold : s.isTold i = true → free = false) (hrests : st.Rests free q) : Stands s free i q
  | waits {free kids : Bool} {i : Nat} {st : FiberState} {cs : List Nat} {ps : List Process}
      {next : Unit → Process} (hstate : s.state? i = some st)
      (htold : s.isTold i = true → free = false) (hwaits : st.Waits free kids cs ps next)
      (hlength : ps.length = cs.length)
      (hps : ∀ (k c : Nat) (q : Process), cs[k]? = some c → ps[k]? = some q → Stands s kids c q) :
      Stands s free i (.fork ps next)

/-- The processes for which several fibers stand. -/
def StandAll (s : Schedule) (free : Bool) (cs : List Nat) (ps : List Process) : Prop :=
  ∀ (k c : Nat) (q : Process), cs[k]? = some c → ps[k]? = some q → Stands s free c q

namespace Stands

/-- What a fiber stands for, given what it is doing. -/
theorem of_state (h : Stands s free i q) (hstate : s.state? i = some st) :
    (s.isTold i = true → free = false) ∧
      (st.Rests free q ∨ ∃ kids cs ps next, q = .fork ps next ∧
        st.Waits free kids cs ps next ∧ ps.length = cs.length ∧ StandAll s kids cs ps) := by
  cases h with
  | rests hstate' htold hrests =>
    rw [hstate] at hstate'
    cases hstate'
    exact ⟨htold, Or.inl hrests⟩
  | waits hstate' htold hwaits hlength hps =>
    rw [hstate] at hstate'
    cases hstate'
    exact ⟨htold, Or.inr ⟨_, _, _, _, rfl, hwaits, hlength, hps⟩⟩

theorem of_ended {e : Ending} (h : Stands s free i q) (hstate : s.state? i = some (.ended e)) :
    e.Fits free q := by
  obtain ⟨-, hrests | ⟨kids, cs, ps, next, -, hwaits, -⟩⟩ := h.of_state hstate
  · cases hrests with
    | ended he => exact he
  · cases hwaits

/-- What a fiber stands for that is about to go on comes to what it goes on with. -/
theorem runs_go {next : Unit → Process} (h : Stands s free i q)
    (hstate : s.state? i = some (.queued (.go cs next))) (w : World) :
    Process.Runs env transport (w, q) (w, next ()) := by
  obtain ⟨-, hrests | ⟨kids, ds, ps, next', rfl, hwaits, -⟩⟩ := h.of_state hstate
  · cases hrests with
    | ready => exact .refl _
  · cases hwaits with
    | joined hdone => exact .move (.join hdone)

/-- A fiber need not be free. -/
theorem weaken (h : Stands s free i q) : Stands s false i q := by
  induction h with
  | rests hstate htold hrests => exact .rests hstate (fun _ => rfl) hrests.weaken
  | waits hstate htold hwaits hlength hps ih =>
    exact .waits hstate (fun _ => rfl) hwaits.weaken hlength ih

/-- What is told to stop still stands for what it has stood for. -/
theorem nudge (h : Stands s free j q) (hn : Nudge i s s') : Stands s' false j q := by
  -- By induction on what the fibers stand for. A sleeping fiber is woken to stop, one that clears its
  -- children away remembers that it was told, and all others are as they were.
  induction h with
  | @rests free j st q hstate htold hrests =>
    by_cases hji : j = i
    · subst hji
      rcases hn.state?_cases with hsame | ⟨next, hold, hnew⟩ | ⟨cs, left, e, told, hold, -⟩
      · exact .rests (hsame ▸ hstate) (fun _ => rfl) hrests.weaken
      · exact .rests hnew (fun _ => rfl) (.stopping .cancelled)
      · rw [hstate] at hold
        cases hold
        cases hrests
    · exact .rests (hn.state?_eq hji ▸ hstate) (fun _ => rfl) hrests.weaken
  | @waits free kids j st cs ps next hstate htold hwaits hlength hps ih =>
    by_cases hji : j = i
    · subst hji
      rcases hn.state?_cases with hsame | ⟨next', hold, -⟩ | ⟨ds, left, e, told, hold, hnew⟩
      · exact .waits (hsame ▸ hstate) (fun _ => rfl) hwaits.weaken hlength ih
      · rw [hstate] at hold
        cases hold
        cases hwaits
      · rw [hstate] at hold
        cases hold
        cases hwaits with
        | clearing he =>
          exact .waits hnew (fun _ => rfl) (.clearing he.weaken fun _ => rfl) hlength ih
    · exact .waits (hn.state?_eq hji ▸ hstate) (fun _ => rfl) hwaits.weaken hlength ih

theorem nudges {P : Nat → Prop} (h : Stands s free j q) (hn : Nudges P s s') :
    Stands s' false j q :=
  hn.keeps (K := fun t => Stands t false j q) (fun _ hstep hs => hs.nudge hstep) h.weaken

end Stands

/-! ## Changes in one place -/

/-- Two schedules have the same fiber, as far as it matters for what it stands for. -/
def SameFiber (s s' : Schedule) (i : Nat) : Prop :=
  s'.state? i = s.state? i ∧ s'.isTold i = s.isTold i

/-- What a fiber stands for depends on the fibers under it only. -/
theorem Stands.frame (hlinked : s.Linked) (h : Stands s free i q)
    (hsame : ∀ j, s.Under i j → j < s.fibers.size → SameFiber s s' j) : Stands s' free i q := by
  induction h with
  | @rests free i st q hstate htold hrests =>
    obtain ⟨hst, ht⟩ := hsame i .refl (lt_size_of_state? hstate)
    exact .rests (hst ▸ hstate) (ht ▸ htold) hrests
  | @waits free kids i st cs ps next hstate htold hwaits hlength hps ih =>
    obtain ⟨hst, ht⟩ := hsame i .refl (lt_size_of_state? hstate)
    refine .waits (hst ▸ hstate) (ht ▸ htold) hwaits hlength fun k c q hc hq =>
      ih k c q hc hq fun j hj => ?_
    have hchild : c ∈ st.children := hwaits.children_eq ▸ List.mem_of_getElem? hc
    exact hsame j (Under.child (hlinked i st hstate c hchild) hj)

/-- A change of a fiber leaves what its children stand for. -/
theorem StandAll.frame (hfamily : Family pending s) (h : StandAll s free cs ps)
    (hown : ∀ c ∈ cs, s.parent? c = some p) (hsame : ∀ m, m ≠ p → SameFiber s s' m) :
    StandAll s' free cs ps := by
  intro k c q hc hq
  refine (h k c q hc hq).frame hfamily.linked fun m hm _ => hsame m ?_
  rintro rfl
  have hlt := hfamily.older c m (hown c (List.mem_of_getElem? hc))
  have hle := hfamily.under_le hm
  omega

theorem StandAll.nudges {P : Nat → Prop} (h : StandAll s free cs ps) (hn : Nudges P s s') :
    StandAll s' false cs ps :=
  fun k c q hc hq => (h k c q hc hq).nudges hn

/-- Where one of several fibers stands for another process, the others still stand for theirs. -/
theorem StandAll.set (hfamily : Family pending s) (h : StandAll s free cs ps)
    (hown : ∀ c ∈ cs, s.parent? c = some j) (hnodup : cs.Nodup) (hij : ¬ s.Under i j)
    (hsame : ∀ m < s.fibers.size, ¬ s.Under i m → SameFiber s s' m) {k : Nat}
    (hk : cs[k]? = some c) (hci : s.Under c i) (hq : Stands s' free c q) :
    StandAll s' free cs (ps.set k q) := by
  intro l d r hd hr
  by_cases hlk : l = k
  · subst hlk
    rw [hk] at hd
    cases hd
    rw [List.getElem?_set_self'] at hr
    obtain ⟨_, -, rfl⟩ := Option.map_eq_some_iff.1 hr
    exact hq
  · rw [List.getElem?_set_ne (Ne.symm hlk)] at hr
    have hparent := hown d (List.mem_of_getElem? hd)
    have hnot : ¬ s.Under d i := by
      intro hdi
      have heq := hfamily.eq_of_common hparent (hown c (List.mem_of_getElem? hk)) hdi hci
      have hl := (List.getElem?_eq_some_iff.1 hd).1
      refine hlk ((List.getElem?_inj hl hnodup).1 ?_)
      rw [hd, hk, heq]
    -- What is under another child is not under the place: then either would be under the other.
    refine (h l d r hd hr).frame hfamily.linked fun m hm hsize => hsame m hsize fun him => ?_
    rcases under_total hm him with hdi | hid
    · exact hnot hdi
    · rcases Relation.ReflTransGen.cases_tail hid with heq | ⟨j', hij', hj'⟩
      · exact hnot (heq ▸ .refl)
      · rw [hparent] at hj'
        cases hj'
        exact hij hij'

/-- A change of a schedule concerns a fiber and those under it only, and what the fiber stands for
moves in the world. -/
structure Shifts (env : Surroundings) (transport : Transport) (s s' : Schedule) (i : Nat) : Prop where
  same : ∀ m < s.fibers.size, ¬ s.Under i m → SameFiber s s' m
  focus : ∀ free q, Stands s free i q →
    ∃ q', Stands s' free i q' ∧ Process.Runs env transport (s.world, q) (s'.world, q')

theorem ne_of_not_under {m : Nat} (h : ¬ s.Under i m) : m ≠ i := by
  rintro rfl
  exact h .refl

/-- A change of one fiber only. -/
theorem Shifts.of_same (hsame : ∀ m, m ≠ i → SameFiber s s' m)
    (hfocus : ∀ free q, Stands s free i q →
      ∃ q', Stands s' free i q' ∧ Process.Runs env transport (s.world, q) (s'.world, q')) :
    Shifts env transport s s' i :=
  ⟨fun m _ hm => hsame m (ne_of_not_under hm), hfocus⟩

theorem Family.kids_of_waits {next : Unit → Process} (h : Family pending s)
    (hstate : s.state? i = some st) (hwaits : st.Waits free kids cs ps next) :
    Kids pending s i cs := by
  have hkeeps := h.keeps i st hstate
  cases hwaits <;> exact hkeeps.1

/-- Nothing runs under a fiber that waits for no children. -/
theorem Family.not_above (h : Family pending s) (hstate : s.state? j = some st)
    (hrests : st.Rests free q) (hji : s.Under j i) (hlive : s.hasEnded i = false) : j = i := by
  have hnot : st.isForking = false := by
    cases hrests <;> rfl
  by_contra hne
  have hended := h.ended_below hstate hnot hji (Ne.symm hne)
  rw [hlive] at hended
  cases hended

/-- A fork moves when the child above a fiber comes to stand for something else. -/
theorem Shifts.fork (hshifts : Shifts env transport s s' i) (hfamily : Family pending s)
    (hlive : s.hasEnded i = false) {next : Unit → Process} (hstate : s.state? j = some st)
    (htold : s.isTold j = true → free = false) (hwaits : st.Waits free kids cs ps next)
    (hlength : ps.length = cs.length) (hps : StandAll s kids cs ps) (hji : s.Under j i)
    (hne : j ≠ i)
    (hih : ∀ (k c : Nat) (q : Process), cs[k]? = some c → ps[k]? = some q → s.Under c i →
      ∃ q', Stands s' kids c q' ∧ Process.Runs env transport (s.world, q) (s'.world, q')) :
    ∃ q', Stands s' free j q' ∧
      Process.Runs env transport (s.world, .fork ps next) (s'.world, q') := by
  have hkids := hfamily.kids_of_waits hstate hwaits
  -- The place is under a child that has not ended, so the fork still stands on that child.
  obtain ⟨c, hc, hci, hcl⟩ := hfamily.exists_live_child hlive hji hne
  have hmem : c ∈ cs := hkids.mem_of_not_settled hc fun hsettled => by
    rw [hsettled.1] at hcl
    cases hcl
  obtain ⟨k, hk⟩ := List.mem_iff_getElem?.1 hmem
  have hlt : k < ps.length := hlength ▸ (List.getElem?_eq_some_iff.1 hk).1
  have hpk : ps[k]? = some ps[k] := List.getElem?_eq_getElem hlt
  obtain ⟨q', hq', hruns⟩ := hih k c _ hk hpk hci
  obtain ⟨hst, ht⟩ := hshifts.same j (lt_size_of_state? hstate) (hfamily.not_under hji hne)
  have hps' : StandAll s' kids cs (ps.set k q') := hps.set hfamily hkids.own hkids.nodup
    (hfamily.not_under hji hne) hshifts.same hk hci hq'
  refine ⟨.fork (ps.set k q') next, ?_, hruns.set hpk⟩
  refine .waits (hst ▸ hstate) (ht ▸ htold) (hwaits.set hpk hruns) ?_ hps'
  rw [List.length_set, hlength]

/-- **A change at one place changes what is above it in that place.** -/
theorem Stands.shift (hshifts : Shifts env transport s s' i) (hfamily : Family pending s)
    (hlive : s.hasEnded i = false) (h : Stands s free j q) (hji : s.Under j i) :
    ∃ q', Stands s' free j q' ∧ Process.Runs env transport (s.world, q) (s'.world, q') := by
  -- By induction on what the fibers stand for. A fiber that waits for no child is not above another
  -- live one, so it is the place itself.
  induction h with
  | @rests free j st q hstate htold hrests =>
    obtain rfl := hfamily.not_above hstate hrests hji hlive
    exact hshifts.focus free q (.rests hstate htold hrests)
  | @waits free kids j st cs ps next hstate htold hwaits hlength hps ih =>
    by_cases hne : j = i
    · subst hne
      exact hshifts.focus free _ (.waits hstate htold hwaits hlength hps)
    · exact hshifts.fork hfamily hlive hstate htold hwaits hlength hps hji hne ih

/-! ## Events -/

theorem sameFiber_of_eq (h : s'.fibers[i]? = s.fibers[i]?) : SameFiber s s' i := by
  simp only [SameFiber, state?, isTold, h, and_self]

/-- When the last report is heard, all children for which a fiber has waited have finished. -/
theorem Family.all_finished {left : Nat} {next : Unit → Process} {context : Context}
    (h : Family (.report c false :: pending) s) (hparent : s.parent? c = some p)
    (hchild : s.state? c = some (.ended (.finished context)))
    (hstate : s.state? p = some (.joining cs left next)) (hleft : left ≤ 1) :
    ∀ d ∈ cs, ∃ context, s.state? d = some (.ended (.finished context)) := by
  obtain ⟨hkids, -, hcount, -, hfinished⟩ := h.keeps p _ hstate
  obtain ⟨-, -, -, hless⟩ := h.heard hparent hkids
  -- No other child is awaited any more, and of those that are not all have finished.
  have hzero : cs.countP (isAwaited pending s false) = 0 := by omega
  intro d hd
  by_cases hdc : d = c
  · subst hdc
    exact ⟨context, hchild⟩
  · have hheard := isAwaited_eq_false_iff.1 (by simpa using List.countP_eq_zero.1 hzero d hd)
    obtain ⟨context', hcontext⟩ := hfinished d hd
      (isAwaited_eq_false_iff.2 ⟨hheard.1, by simpa [hdc] using hheard.2⟩)
    exact ⟨context', ending?_eq_some_iff.1 hcontext⟩

/-- What is left of a process that has come to a halt comes of it. -/
theorem exists_leaves {w w' : World} {pause : Pause}
    (hrun : q.advance env transport w = (w', pause)) :
    ∃ q', pause.Leaves q' ∧ Process.Runs env transport (w, q) (w', q') := by
  obtain ⟨q', hleaves, hruns⟩ := q.runs_advance env transport w
  rw [hrun] at hleaves hruns
  exact ⟨q', hleaves, hruns⟩

/-- A fiber that ends as it was to end stands for what it has stood for. -/
theorem shifts_stops (hparent : s.parent? i ≠ some i) {r : Resumption} {e : Ending}
    (hstate : s.state? i = some (.queued r))
    (hend : (∃ next, s.isTold i = true ∧ r = .go [] next ∧ e = .cancelled) ∨
      ∃ last, r = .stop last ∧ e = last.unless (s.isTold i)) :
    Shifts env transport s ((s.setCancelled i false).finish i e) i := by
  have hne' : (s.setCancelled i false).parent? i ≠ some i := by simpa using hparent
  have hworld : ((s.setCancelled i false).finish i e).world = s.world := world_finish hne'
  have hnew : ((s.setCancelled i false).finish i e).state? i = some (.ended e) := by
    rw [state?_finish_self hne', state?_setCancelled, hstate]
    rfl
  have hfree : ((s.setCancelled i false).finish i e).isTold i = false := by
    rw [isTold_finish hne', isTold_setCancelled_self]
  apply Shifts.of_same
  · intro m hmi
    constructor
    · rw [state?_finish_of_ne hne' hmi, state?_setCancelled]
    · rw [isTold_finish hne', isTold_setCancelled_of_ne hmi]
  · intro free q hq
    -- A fiber that was told to stop is not free, so that its ending fits whatever it stands for.
    have hfits : e.Fits free q := by
      obtain ⟨htold, hrests | ⟨kids, cs, ps, next, -, hwaits, -⟩⟩ := hq.of_state hstate
      · rcases hend with ⟨next, hyes, -, rfl⟩ | ⟨last, rfl, rfl⟩
        · rw [htold hyes]
          exact .cancelled
        · cases hrests with
          | stopping he => exact he.unless htold
      · rcases hend with ⟨next', hyes, -, rfl⟩ | ⟨last, rfl, -⟩
        · rw [htold hyes]
          exact .cancelled
        · cases hwaits
    refine ⟨q, .rests hnew (by simp [hfree]) (.ended hfits), ?_⟩
    rw [hworld]
    exact .refl _

/-- A fiber that begins to clear its children away stands for the same fork, in which they may be
anything. -/
theorem shifts_clears (hfamily : Family pending s) {r : Resumption} {e : Ending}
    (hstate : s.state? i = some (.queued r))
    (hend : (∃ next, s.isTold i = true ∧ r = .go cs next ∧ cs ≠ [] ∧ e = .cancelled) ∨
      ∃ last, r = .clear cs last ∧ e = last.unless (s.isTold i)) :
    Shifts env transport s ((s.setCancelled i false).clear i cs e) i := by
  have hstate' : (s.setCancelled i false).state? i = some (.queued r) := by simpa using hstate
  have hfamily' : Family pending (s.setCancelled i false) :=
    hfamily.of_same (by simp) (by simp) (by simp)
  have hchildren : FiberState.children (.queued r) = cs := by
    rcases hend with ⟨next, -, rfl, -⟩ | ⟨last, rfl, -⟩ <;> rfl
  have hown : ∀ d ∈ cs, (s.setCancelled i false).parent? d = some i :=
    fun d hd => hfamily'.linked i _ hstate' d (hchildren ▸ hd)
  have hnudges : Nudges (fun j => ∃ c ∈ cs, (s.setCancelled i false).Under c j)
      (s.setCancelled i false) ((s.setCancelled i false).cancelAll cs) :=
    nudges_cancelAll cs _ hfamily'.linked fun c hc j hj => ⟨c, hc, hj⟩
  have hunder : ∀ {a b}, (s.setCancelled i false).Under a b ↔ s.Under a b := by
    intro a b
    simp only [Under, parent?_setCancelled]
  have hself := hfamily'.fiber_cancelAll hown
  have hnew : ((s.setCancelled i false).clear i cs e).state? i =
      some (.clearing cs cs.length e false) := by
    have hsome : ((s.setCancelled i false).cancelAll cs).state? i = some (.queued r) := by
      rw [← hstate']
      simp only [state?, hself]
    rw [clear_eq, state?_setState_self]
    exact congrArg (Option.map _) hsome
  have hfree : ((s.setCancelled i false).clear i cs e).isTold i = false := by
    have hnot : ((s.setCancelled i false).cancelAll cs).isTold i = false := by
      simp only [isTold, hself]
      exact isTold_setCancelled_self
    rw [clear_eq, isTold_setState]
    exact hnot
  have hworld : ((s.setCancelled i false).clear i cs e).world = s.world := by
    rw [clear_eq]
    exact hnudges.world_eq
  -- The children stand for the same when the fiber is told no more, when they are told to stop, and
  -- when the fiber begins to wait for them.
  have hkids : ∀ {free ps}, StandAll s free cs ps →
      StandAll ((s.setCancelled i false).clear i cs e) false cs ps := by
    intro free ps hps
    have hfirst : StandAll (s.setCancelled i false) free cs ps :=
      hps.frame hfamily (fun c hc => by simpa using hown c hc)
        fun m hm => ⟨state?_setCancelled false, isTold_setCancelled_of_ne hm false⟩
    have htold := hfirst.nudges hnudges
    refine htold.frame (hfamily'.nudges hnudges) (p := i) ?_ fun m hm => sameFiber_of_eq ?_
    · intro c hc
      rw [hnudges.parent?_eq]
      exact hown c hc
    · rw [clear_eq, fibers_setState, if_neg hm.symm]
  constructor
  · intro m _ hm
    have hmi := ne_of_not_under hm
    have hfiber := hnudges.fiber_eq (j := m) (by
      rintro ⟨c, hc, hcm⟩
      exact hm (Under.child (by simpa using hown c hc) (hunder.1 hcm)))
    rw [fibers_setCancelled, if_neg hmi.symm] at hfiber
    refine sameFiber_of_eq ?_
    rw [clear_eq, fibers_setState, if_neg hmi.symm]
    exact hfiber
  · intro free q hq
    obtain ⟨htold, hrests | ⟨kids, ds, ps, next, rfl, hwaits, hlength, hps⟩⟩ := hq.of_state hstate
    · rcases hend with ⟨next, -, rfl, hcs, -⟩ | ⟨last, rfl, -⟩
      · cases hrests
        exact absurd rfl hcs
      · cases hrests
    · refine ⟨.fork ps next, ?_, hworld ▸ .refl _⟩
      have hds : ds = cs := hwaits.children_eq.symm.trans hchildren
      subst hds
      refine .waits hnew (by simp [hfree]) (.clearing ?_ (by simp)) hlength (hkids hps)
      rcases hend with ⟨next, hyes, -, -, rfl⟩ | ⟨last, rfl, rfl⟩
      · rw [htold hyes]
        exact .cancelled
      · cases hwaits with
        | breaking he => exact he.unless htold

section
variable {next : Unit → Process} {w : World}
  (hstate : s.state? i = some (.queued (.go cs next)))
include hstate

/-- A fiber that runs to its end comes to stand for the end. -/
theorem shifts_ends (hparent : s.parent? i ≠ some i) {e : Ending}
    (hrun : (next ()).advance env transport s.world = (w, .ended e)) :
    Shifts env transport s (((s.setCancelled i false).setWorld w).finish i e) i := by
  have hne' : ((s.setCancelled i false).setWorld w).parent? i ≠ some i := by
    simpa using hparent
  obtain ⟨q', hleaves, hruns⟩ := exists_leaves hrun
  have hworld : (((s.setCancelled i false).setWorld w).finish i e).world = w :=
    world_finish hne'
  have hnew : (((s.setCancelled i false).setWorld w).finish i e).state? i =
      some (.ended e) := by
    rw [state?_finish_self hne', state?_setWorld, state?_setCancelled, hstate]
    rfl
  have hfree : (((s.setCancelled i false).setWorld w).finish i e).isTold i = false := by
    rw [isTold_finish hne', isTold_setWorld, isTold_setCancelled_self]
  apply Shifts.of_same
  · intro m hmi
    constructor
    · rw [state?_finish_of_ne hne' hmi, state?_setWorld, state?_setCancelled]
    · rw [isTold_finish hne', isTold_setWorld, isTold_setCancelled_of_ne hmi]
  · intro free q hq
    have hfits : e.Fits free q' := by
      cases hleaves with
      | finished => exact .finished
      | failed => exact .failed
    refine ⟨q', .rests hnew (by simp [hfree]) (.ended hfits), ?_⟩
    rw [hworld]
    exact (hq.runs_go hstate s.world).trans hruns

/-- A fiber that falls asleep comes to stand for what it is to do when it wakes. -/
theorem shifts_sleeps {seconds : Binary64} {next' : Unit → Process}
    (hrun : (next ()).advance env transport s.world = (w, .asleep seconds next')) :
    Shifts env transport s
      ((((s.setCancelled i false).setWorld w).setTimer seconds (.ring i)).setState i
        (.asleep next')) i := by
  obtain ⟨q', hleaves, hruns⟩ := exists_leaves hrun
  apply Shifts.of_same
  · intro m hmi
    constructor
    · rw [state?_setState_of_ne hmi]
      simp
    · rw [isTold_setState, isTold_setTimer, isTold_setWorld, isTold_setCancelled_of_ne hmi]
  · intro free q hq
    refine ⟨q', ?_, (hq.runs_go hstate s.world).trans hruns⟩
    cases hleaves with
    | asleep =>
      have hnew : ((((s.setCancelled i false).setWorld w).setTimer seconds (.ring i)).setState i
          (.asleep next')).state? i = some (.asleep next') := by
        simp [hstate]
      refine .rests hnew ?_ .asleep
      rw [isTold_setState, isTold_setTimer, isTold_setWorld, isTold_setCancelled_self]
      simp

/-- A fiber that forks comes to stand for the fork of its branches. -/
theorem shifts_forks {branches : List Process} {next' : Unit → Process}
    (hrun : (next ()).advance env transport s.world = (w, .forked branches next')) :
    Shifts env transport s (((s.setCancelled i false).setWorld w).fork i branches next') i := by
  obtain ⟨q', hleaves, hruns⟩ := exists_leaves hrun
  have hi : i < ((s.setCancelled i false).setWorld w).fibers.size := by
    simpa using lt_size_of_state? hstate
  constructor
  · -- New fibers are not under any that there were before.
    intro m hmsize hm
    have hmi := ne_of_not_under hm
    have hmsize' : m < ((s.setCancelled i false).setWorld w).fibers.size := by
      simpa using hmsize
    refine sameFiber_of_eq ?_
    rw [fibers_fork_old hmsize' hmi]
    exact (fibers_setCancelled false).trans (if_neg hmi.symm)
  · intro free q hq
    refine ⟨q', ?_, (hq.runs_go hstate s.world).trans hruns⟩
    cases hleaves with
    | forked =>
      refine .waits (state?_fork_self hi) ?_ .joining (length_forked branches).symm
        fun k c b hc hb => ?_
      · rw [isTold_fork_self hi, isTold_setWorld, isTold_setCancelled_self]
        simp
      · -- Each new fiber is about to run its branch.
        obtain ⟨hk, rfl⟩ := List.getElem?_eq_some_iff.1 hb
        obtain ⟨-, hst, ht⟩ := fork_new next' hi hk
        obtain ⟨hk', rfl⟩ := List.getElem?_eq_some_iff.1 hc
        have hindex : (((s.setCancelled i false).setWorld w).forked branches)[k] =
            ((s.setCancelled i false).setWorld w).fibers.size + k := by
          simp [forked]
        rw [hindex]
        exact .rests hst (by rw [ht]; simp) .ready

end

section
variable {left : Nat} {next : Unit → Process}

/-- What a fiber stands for that waits for its children to finish. -/
theorem Stands.of_joining (h : Stands s free i q)
    (hstate : s.state? i = some (.joining cs left next)) :
    (s.isTold i = true → free = false) ∧
      ∃ ps, q = .fork ps next ∧ ps.length = cs.length ∧ StandAll s free cs ps := by
  obtain ⟨htold, hrests | ⟨kids, ds, ps, next', rfl, hwaits, hlength, hps⟩⟩ := h.of_state hstate
  · cases hrests
  · cases hwaits with
    | joining => exact ⟨htold, ps, rfl, hlength, hps⟩

/-- What a fiber stands for that clears its children away. -/
theorem Stands.of_clearing {e : Ending} {told : Bool} (h : Stands s free i q)
    (hstate : s.state? i = some (.clearing cs left e told)) :
    (s.isTold i = true → free = false) ∧ (told = true → free = false) ∧
      ∃ ps next, q = .fork ps next ∧ e.Breaks free ps ∧ ps.length = cs.length ∧
        StandAll s false cs ps := by
  obtain ⟨htold, hrests | ⟨kids, ds, ps, next', rfl, hwaits, hlength, hps⟩⟩ := h.of_state hstate
  · cases hrests
  · cases hwaits with
    | clearing he htold' => exact ⟨htold, htold', ps, next', rfl, he, hlength, hps⟩

variable (hfamily : Family (.report c false :: pending) s) (hparent : s.parent? c = some p)
  (hstate : s.state? p = some (.joining cs left next))
include hfamily hparent hstate

/-- Once all children have finished, all branches are done. -/
theorem shifts_joins {context : Context} (hchild : s.state? c = some (.ended (.finished context)))
    (hleft : left ≤ 1) : Shifts env transport s (s.enqueue p (.go cs next)) p := by
  have hfinished := hfamily.all_finished hparent hchild hstate hleft
  have hsame : ∀ m, m ≠ p → SameFiber s (s.enqueue p (.go cs next)) m :=
    fun m hm => ⟨state?_enqueue_of_ne hm _, isTold_enqueue _⟩
  have hnew : (s.enqueue p (.go cs next)).state? p = some (.queued (.go cs next)) := by
    simp [hstate]
  apply Shifts.of_same hsame
  intro free q hq
  obtain ⟨htold, ps, rfl, hlength, hps⟩ := hq.of_joining hstate
  have hkids : Kids _ s p cs := (hfamily.keeps p _ hstate).1
  have hps' := hps.frame hfamily hkids.own hsame
  have hdone : ∀ b ∈ ps, ∃ context, b = .done context := by
    intro b hb
    obtain ⟨k, hk⟩ := List.mem_iff_getElem?.1 hb
    have hklt : k < cs.length := hlength ▸ (List.getElem?_eq_some_iff.1 hk).1
    obtain ⟨context', hcontext⟩ := hfinished cs[k] (List.getElem_mem hklt)
    have hfits := (hps k cs[k] b (List.getElem?_eq_getElem hklt) hk).of_ended hcontext
    cases hfits with
    | finished => exact ⟨context', rfl⟩
  exact ⟨_, .waits hnew (by simpa using htold) (.joined hdone) hlength hps', .refl _⟩

/-- The ending of a child that has not finished breaks the fork. -/
theorem shifts_breaks {e : Ending} (hchild : s.state? c = some (.ended e))
    (hfailed : ∀ context, e ≠ .finished context) :
    Shifts env transport s (s.enqueue p (.clear cs e)) p := by
  have hsame : ∀ m, m ≠ p → SameFiber s (s.enqueue p (.clear cs e)) m :=
    fun m hm => ⟨state?_enqueue_of_ne hm _, isTold_enqueue _⟩
  have hnew : (s.enqueue p (.clear cs e)).state? p = some (.queued (.clear cs e)) := by
    simp [hstate]
  apply Shifts.of_same hsame
  intro free q hq
  obtain ⟨htold, ps, rfl, hlength, hps⟩ := hq.of_joining hstate
  have hkids : Kids _ s p cs := (hfamily.keeps p _ hstate).1
  have hps' := hps.frame hfamily hkids.own hsame
  -- The report of the child is still to be heard, so the child is one of those waited for.
  have hmem : c ∈ cs := hkids.mem_of_not_settled hparent fun hsettled =>
    hsettled.2 false List.mem_cons_self
  obtain ⟨k, hk⟩ := List.mem_iff_getElem?.1 hmem
  have hlt : k < ps.length := hlength ▸ (List.getElem?_eq_some_iff.1 hk).1
  have hfits := (hps k c ps[k] hk (List.getElem?_eq_getElem hlt)).of_ended hchild
  have hbreaks : e.Breaks free ps := hfits.breaks hfailed (List.getElem_mem hlt)
  exact ⟨_, .waits hnew (by simpa using htold) (.breaking hbreaks) hlength hps', .refl _⟩

omit hparent in
/-- Counting children that have finished changes nothing. -/
theorem shifts_counts (left' : Nat) :
    Shifts env transport s (s.setState p (.joining cs left' next)) p := by
  have hsame : ∀ m, m ≠ p → SameFiber s (s.setState p (.joining cs left' next)) m :=
    fun m hm => ⟨state?_setState_of_ne hm _, isTold_setState _⟩
  have hnew : (s.setState p (.joining cs left' next)).state? p =
      some (.joining cs left' next) := by
    simp [hstate]
  apply Shifts.of_same hsame
  intro free q hq
  obtain ⟨htold, ps, rfl, hlength, hps⟩ := hq.of_joining hstate
  have hkids : Kids _ s p cs := (hfamily.keeps p _ hstate).1
  have hps' := hps.frame hfamily hkids.own hsame
  exact ⟨_, .waits hnew (by simpa using htold) .joining hlength hps', .refl _⟩

end

section
variable {left : Nat} {last : Ending} {told : Bool} (hfamily : Family pending s)
  (hstate : s.state? p = some (.clearing cs left last told))
include hstate

/-- Once all children have been cleared away, the fork is aborted if a branch of it has failed. -/
theorem shifts_cleared :
    Shifts env transport s (s.enqueue p (.stop (last.unless told))) p := by
  have hnew : (s.enqueue p (.stop (last.unless told))).state? p =
      some (.queued (.stop (last.unless told))) := by
    simp [hstate]
  apply Shifts.of_same
  · intro m hmp
    exact ⟨state?_enqueue_of_ne hmp _, isTold_enqueue _⟩
  · intro free q hq
    obtain ⟨htold, htold', ps, next, rfl, hbreaks, -, -⟩ := hq.of_clearing hstate
    obtain ⟨q', hfits, hruns⟩ := (hbreaks.unless htold').exists_fits s.world
    exact ⟨q', .rests hnew (by simpa using htold) (.stopping hfits), hruns⟩

include hfamily in
/-- Counting children that have been cleared away changes nothing. -/
theorem shifts_discounts (left' : Nat) :
    Shifts env transport s (s.setState p (.clearing cs left' last told)) p := by
  have hsame : ∀ m, m ≠ p → SameFiber s (s.setState p (.clearing cs left' last told)) m :=
    fun m hm => ⟨state?_setState_of_ne hm _, isTold_setState _⟩
  have hnew : (s.setState p (.clearing cs left' last told)).state? p =
      some (.clearing cs left' last told) := by
    simp [hstate]
  apply Shifts.of_same hsame
  intro free q hq
  obtain ⟨htold, htold', ps, next, rfl, hbreaks, hlength, hps⟩ := hq.of_clearing hstate
  have hkids : Kids _ s p cs := (hfamily.keeps p _ hstate).1
  have hps' := hps.frame hfamily hkids.own hsame
  exact ⟨_, .waits hnew (by simpa using htold) (.clearing hbreaks htold') hlength hps', .refl _⟩

end

/-- A sleeping fiber that is woken stands for what it has stood for. -/
theorem shifts_wakes {next : Unit → Process} (hstate : s.state? i = some (.asleep next)) :
    Shifts env transport s (s.enqueue i (.go [] next)) i := by
  have hnew : (s.enqueue i (.go [] next)).state? i = some (.queued (.go [] next)) := by
    simp [hstate]
  apply Shifts.of_same
  · intro m hmi
    exact ⟨state?_enqueue_of_ne hmi _, isTold_enqueue _⟩
  · intro free q hq
    obtain ⟨htold, hrests | ⟨kids, ds, ps, next', -, hwaits, -⟩⟩ := hq.of_state hstate
    · cases hrests with
      | asleep => exact ⟨_, .rests hnew (by simpa using htold) .ready, .refl _⟩
    · cases hwaits

/-- **Letting an event happen moves the process of the run.** The run stays free unless it is told to
stop. -/
theorem stands_happens {event : Event} (hfamily : Family (event :: pending) s)
    (hcut : event = .cutOff → free = false) (hstep : Happens env transport s event s')
    (h : Stands s free main q) :
    ∃ q', Stands s' free main q' ∧ Process.Runs env transport (s.world, q) (s'.world, q') := by
  have hparent : ∀ {i}, s.parent? i ≠ some i := fun {i} => hfamily.parent_ne i
  -- All fibers are under the fiber of the run, so what shifts one of them moves its process.
  have hplace : ∀ {i st}, s.state? i = some st → (∀ e, st ≠ .ended e) →
      Shifts env transport s s' i →
      ∃ q', Stands s' free main q' ∧ Process.Runs env transport (s.world, q) (s'.world, q') := by
    intro i st hst hlive hshifts
    exact h.shift hshifts hfamily (not_hasEnded_of_state hst hlive)
      (hfamily.under_main i (lt_size_of_state? hst))
  cases hstep with
  | stops hstate hend => exact hplace hstate (by simp) (shifts_stops hparent hstate hend)
  | clears hstate hend => exact hplace hstate (by simp) (shifts_clears hfamily hstate hend)
  | ends hstate htold hrun => exact hplace hstate (by simp) (shifts_ends hstate hparent hrun)
  | sleeps hstate htold hrun => exact hplace hstate (by simp) (shifts_sleeps hstate hrun)
  | forks hstate htold hrun => exact hplace hstate (by simp) (shifts_forks hstate hrun)
  | wakes hstate => exact hplace hstate (by simp) (shifts_wakes hstate)
  | joins hchild hparent' hstate hleft =>
    exact hplace hstate (by simp) (shifts_joins hfamily hparent' hstate hchild hleft)
  | counts hchild hparent' hstate hleft =>
    exact hplace hstate (by simp) (shifts_counts hfamily hstate _)
  | breaks hchild hfailed hparent' hstate =>
    exact hplace hstate (by simp) (shifts_breaks hfamily hparent' hstate hchild hfailed)
  | cleared hchild hparent' hstate hleft =>
    exact hplace hstate (by simp) (shifts_cleared hstate)
  | discounts hchild hparent' hstate hleft =>
    exact hplace hstate (by simp) (shifts_discounts hfamily hstate _)
  | expires => exact ⟨q, h.frame hfamily.linked fun _ _ _ => ⟨rfl, rfl⟩, .refl _⟩
  | cuts =>
    obtain rfl := hcut rfl
    have hnudges := nudges_cancel s.fibers.size main s hfamily.linked
    exact ⟨q, h.nudges hnudges, hnudges.world_eq ▸ .refl _⟩
  | nothing hidle => exact ⟨q, h, .refl _⟩

end Schedule

end Workgraph
