import Workgraph.Proofs.Engine.Telling
/-!
# Families of fibers

What holds between a fiber and the fibers that it has started, in every schedule that a run comes
to. Fibers are numbered in the order of their start. A child that has ended has at most one report
of each kind to make. What else holds of the children depends on what their parent is doing
(`Keeps`): while it runs or sleeps, all of them have ended and have nothing to report; while it
waits for them, the number of those that it still waits for is right; once it is about to end, all
of them have ended. Letting an event happen keeps all this (`Family.happens`).
-/

namespace Workgraph

namespace Schedule

variable {pending pending' : List Event} {s s' : Schedule} {i p c : Nat}

/-- A fiber has ended, and no report of it is on its way. -/
def Settled (pending : List Event) (s : Schedule) (c : Nat) : Prop :=
  s.hasEnded c = true ∧ ∀ clearing, Event.report c clearing ∉ pending

/-- Whether a wait, of one of two kinds, still has to hear of a fiber. -/
def isAwaited (pending : List Event) (s : Schedule) (clearing : Bool) (c : Nat) : Bool :=
  !s.hasEnded c || decide (Event.report c clearing ∈ pending)

/-- The children of a fiber: those of its last fork, and others, which are settled. -/
structure Kids (pending : List Event) (s : Schedule) (p : Nat) (cs : List Nat) : Prop where
  nodup : cs.Nodup
  own : ∀ c ∈ cs, s.parent? c = some p
  others : ∀ c, s.parent? c = some p → c ∉ cs → Settled pending s c

/-- What holds of the children of a fiber in a state. -/
def Keeps (pending : List Event) (s : Schedule) (p : Nat) : FiberState → Prop
  | .queued (.go cs _) => Kids pending s p cs ∧ ∀ c ∈ cs, Settled pending s c
  | .asleep _ => Kids pending s p []
  | .queued (.clear cs _) =>
    Kids pending s p cs ∧ cs ≠ [] ∧ ∀ c ∈ cs, Event.report c true ∉ pending
  | .joining cs left _ =>
    Kids pending s p cs ∧ (∀ c ∈ cs, Event.report c true ∉ pending) ∧
      left = cs.countP (isAwaited pending s false) ∧ (cs ≠ [] → 0 < left) ∧
      ∀ c ∈ cs, isAwaited pending s false c = false → ∃ context, s.ending? c = some (.finished context)
  | .clearing cs left _ _ =>
    Kids pending s p cs ∧ left = cs.countP (isAwaited pending s true) ∧ 0 < left
  | .queued (.stop _) | .ended _ => ∀ c, s.parent? c = some p → s.hasEnded c = true

/-- What holds of all fibers of a schedule and of the events that are yet to happen. -/
structure Family (pending : List Event) (s : Schedule) : Prop where
  older : ∀ c p, s.parent? c = some p → p < c
  rooted : ∀ c < s.fibers.size, c ≠ main → ∃ p, s.parent? c = some p
  once : ∀ c clearing, pending.count (.report c clearing) ≤ 1
  ended : ∀ c clearing, Event.report c clearing ∈ pending → s.hasEnded c = true
  keeps : ∀ p st, s.state? p = some st → Keeps pending s p st

theorem hasEnded_congr (h : s'.ending? c = s.ending? c) : s'.hasEnded c = s.hasEnded c := by
  rw [hasEnded_eq_isSome, hasEnded_eq_isSome, h]

theorem not_hasEnded_of_state {st : FiberState} (h : s.state? i = some st)
    (hst : ∀ e, st ≠ .ended e) : s.hasEnded i = false := by
  rw [← Bool.not_eq_true, hasEnded_iff]
  rintro ⟨e, he⟩
  rw [h] at he
  cases he
  exact hst e rfl

theorem isAwaited_eq_false_iff {clearing : Bool} : isAwaited pending s clearing c = false ↔
    s.hasEnded c = true ∧ Event.report c clearing ∉ pending := by
  simp [isAwaited]

theorem isAwaited_of_not_ended (clearing : Bool) (h : s.hasEnded c = false) :
    isAwaited pending s clearing c = true := by
  simp [isAwaited, h]

theorem isAwaited_of_mem {clearing : Bool} (h : Event.report c clearing ∈ pending) :
    isAwaited pending s clearing c = true := by
  simp [isAwaited, h]

namespace Kids

variable {cs : List Nat}

theorem all_settled (h : Kids pending s p cs) (hcs : ∀ c ∈ cs, Settled pending s c) :
    Kids pending s p [] := by
  refine ⟨List.nodup_nil, by simp, fun c hc _ => ?_⟩
  by_cases hmem : c ∈ cs
  · exact hcs c hmem
  · exact h.others c hc hmem

theorem all_ended (h : Kids pending s p []) (c : Nat) (hc : s.parent? c = some p) :
    s.hasEnded c = true :=
  (h.others c hc (by simp)).1

/-- A child that has not ended, or that has something to report, is one of the last fork. -/
theorem mem_of_not_settled (h : Kids pending s p cs) (hc : s.parent? c = some p)
    (hno : ¬ Settled pending s c) : c ∈ cs := by
  by_contra hmem
  exact hno (h.others c hc hmem)

end Kids

/-- Passing on what holds of the children to another schedule, or to other events that are yet to
happen. -/
theorem Keeps.pass {st : FiberState} (h : Keeps pending s p st)
    (hparent : ∀ c, s'.parent? c = some p ↔ s.parent? c = some p)
    (hsettled : ∀ c, s.parent? c = some p → Settled pending s c → Settled pending' s' c)
    (hending : ∀ c e, s.parent? c = some p → s.ending? c = some e → s'.ending? c = some e)
    (hlate : (∀ cs left e told, st ≠ .clearing cs left e told) →
      ∀ c, s.parent? c = some p → Event.report c true ∉ pending → Event.report c true ∉ pending')
    (hawaited : ∀ clearing c, s.parent? c = some p →
      (clearing = true → ∃ cs left e told, st = .clearing cs left e told) →
      (clearing = false → ∃ cs left next, st = .joining cs left next) →
      isAwaited pending' s' clearing c = isAwaited pending s clearing c) :
    Keeps pending' s' p st := by
  have hkids : ∀ {cs}, Kids pending s p cs → Kids pending' s' p cs := by
    intro cs hk
    exact ⟨hk.nodup, fun c hc => (hparent c).2 (hk.own c hc),
      fun c hc hmem => hsettled c ((hparent c).1 hc) (hk.others c ((hparent c).1 hc) hmem)⟩
  have hall : (∀ c, s.parent? c = some p → s.hasEnded c = true) →
      ∀ c, s'.parent? c = some p → s'.hasEnded c = true := by
    intro hs c hc
    have hc' := (hparent c).1 hc
    obtain ⟨e, he⟩ := hasEnded_iff.1 (hs c hc')
    exact hasEnded_iff.2 ⟨e, ending?_eq_some_iff.1 (hending c e hc' (ending?_eq_some_iff.2 he))⟩
  cases st with
  | queued r =>
    cases r with
    | go cs next => exact ⟨hkids h.1, fun c hc => hsettled c (h.1.own c hc) (h.2 c hc)⟩
    | clear cs e =>
      exact ⟨hkids h.1, h.2.1, fun c hc => hlate (by simp) c (h.1.own c hc) (h.2.2 c hc)⟩
    | stop e => exact hall h
  | asleep next => exact hkids h
  | joining cs left next =>
    obtain ⟨hk, hnone, hleft, hpos, hfinished⟩ := h
    have hsame : ∀ c ∈ cs, isAwaited pending' s' false c = isAwaited pending s false c :=
      fun c hc => hawaited false c (hk.own c hc) (by simp) (fun _ => ⟨cs, left, next, rfl⟩)
    refine ⟨hkids hk, fun c hc => hlate (by simp) c (hk.own c hc) (hnone c hc), ?_, hpos, ?_⟩
    · rw [hleft]
      exact List.countP_congr fun c hc => by rw [hsame c hc]
    · intro c hc hawait
      rw [hsame c hc] at hawait
      obtain ⟨context, hcontext⟩ := hfinished c hc hawait
      exact ⟨context, hending c _ (hk.own c hc) hcontext⟩
  | clearing cs left e told =>
    obtain ⟨hk, hleft, hpos⟩ := h
    refine ⟨hkids hk, ?_, hpos⟩
    rw [hleft]
    refine List.countP_congr fun c hc => ?_
    rw [hawaited true c (hk.own c hc) (fun _ => ⟨cs, left, e, told, rfl⟩) (by simp)]
  | ended e => exact hall h

/-- What holds of the children does not change if neither they nor their reports do. -/
theorem Keeps.congr {st : FiberState} (h : Keeps pending s p st)
    (hparent : ∀ c, s'.parent? c = some p ↔ s.parent? c = some p)
    (hending : ∀ c, s.parent? c = some p → s'.ending? c = s.ending? c)
    (hreports : ∀ c clearing, s.parent? c = some p →
      (Event.report c clearing ∈ pending' ↔ Event.report c clearing ∈ pending)) :
    Keeps pending' s' p st := by
  have hended : ∀ c, s.parent? c = some p → s'.hasEnded c = s.hasEnded c :=
    fun c hc => hasEnded_congr (hending c hc)
  refine h.pass hparent ?_ ?_ ?_ ?_
  · intro c hc hsettled
    exact ⟨by rw [hended c hc, hsettled.1], fun k hk => hsettled.2 k ((hreports c k hc).1 hk)⟩
  · intro c e hc he
    rw [hending c hc, he]
  · intro _ c hc hno hin
    exact hno ((hreports c true hc).1 hin)
  · intro k c hc _ _
    simp only [isAwaited, hended c hc, hreports c k hc]

namespace Family

/-- Only the reports among the events matter. -/
theorem of_count (h : Family pending s)
    (hcount : ∀ c k, pending'.count (.report c k) = pending.count (.report c k)) :
    Family pending' s := by
  have hmem : ∀ c k, Event.report c k ∈ pending' ↔ Event.report c k ∈ pending := by
    intro c k
    rw [← List.count_pos_iff, hcount, List.count_pos_iff]
  refine ⟨h.older, h.rooted, fun c k => by rw [hcount]; exact h.once c k,
    fun c k hk => h.ended c k ((hmem c k).1 hk), fun p st hst => ?_⟩
  exact (h.keeps p st hst).congr (fun _ => Iff.rfl) (fun _ _ => rfl) fun c k _ => hmem c k

/-- Further events that are no reports do not matter. -/
theorem append (h : Family pending s) {extra : List Event}
    (hextra : ∀ c k, Event.report c k ∉ extra) : Family (pending ++ extra) s := by
  refine h.of_count fun c k => ?_
  rw [List.count_append, List.count_eq_zero.2 (hextra c k), Nat.add_zero]

/-- Only what the fibers are doing and who started them matters. -/
theorem of_same (h : Family pending s) (hstate : ∀ i, s'.state? i = s.state? i)
    (hparent : ∀ i, s'.parent? i = s.parent? i) (hsize : s'.fibers.size = s.fibers.size) :
    Family pending s' := by
  have hended : ∀ c, s'.hasEnded c = s.hasEnded c :=
    fun c => hasEnded_congr (ending?_congr (hstate c))
  refine ⟨fun c p hp => h.older c p (hparent c ▸ hp), fun c hc hne => ?_, h.once,
    fun c k hk => by rw [hended]; exact h.ended c k hk, fun p st hst => ?_⟩
  · rw [hparent]
    exact h.rooted c (hsize ▸ hc) hne
  · rw [hstate] at hst
    refine (h.keeps p st hst).congr (fun c => by rw [hparent])
      (fun c _ => ending?_congr (hstate c)) fun _ _ _ => Iff.rfl

theorem parent_ne (h : Family pending s) (i : Nat) : s.parent? i ≠ some i :=
  fun hi => Nat.lt_irrefl i (h.older i i hi)

theorem linked (h : Family pending s) : s.Linked := by
  intro p st hst c hc
  have hkeeps := h.keeps p st hst
  cases st with
  | queued r =>
    cases r with
    | go cs next => exact hkeeps.1.own c hc
    | clear cs e => exact hkeeps.1.own c hc
    | stop e => simp [FiberState.children] at hc
  | asleep next => simp [FiberState.children] at hc
  | joining cs left next => exact hkeeps.1.own c hc
  | clearing cs left e told => exact hkeeps.1.own c hc
  | ended e => simp [FiberState.children] at hc

/-- A change of one fiber that has not ended and does not end by it, and of the reports that its
children have yet to make. -/
theorem setState (h : Family pending s) {st st' : FiberState} (hold : s.state? i = some st)
    (hlive : ∀ e, st ≠ .ended e) (hlive' : ∀ e, st' ≠ .ended e)
    (honce : ∀ c k, pending'.count (.report c k) ≤ 1)
    (hreported : ∀ c k, Event.report c k ∈ pending' → s.hasEnded c = true)
    (hothers : ∀ c k, s.parent? c ≠ some i →
      (Event.report c k ∈ pending' ↔ Event.report c k ∈ pending))
    (hkeeps : Keeps pending' s i st') : Family pending' (s.setState i st') := by
  have hending : ∀ c, (s.setState i st').ending? c = s.ending? c := by
    intro c
    by_cases hc : c = i
    · subst hc
      unfold ending?
      rw [state?_setState_self, hold]
      cases st <;> cases st' <;> simp_all
    · exact ending?_congr (state?_setState_of_ne hc st')
  have hended : ∀ c, (s.setState i st').hasEnded c = s.hasEnded c :=
    fun c => hasEnded_congr (hending c)
  refine ⟨fun c p hp => h.older c p (by simpa using hp), fun c hc hne => ?_, honce,
    fun c k hk => by rw [hended]; exact hreported c k hk, fun p st'' hst => ?_⟩
  · simpa using h.rooted c (by simpa using hc) hne
  · by_cases hp : p = i
    · subst hp
      rw [state?_setState_self, hold] at hst
      cases hst
      exact hkeeps.congr (fun c => by simp) (fun c _ => hending c) fun _ _ _ => Iff.rfl
    · rw [state?_setState_of_ne hp] at hst
      refine (h.keeps p st'' hst).congr (fun c => by simp) (fun c _ => hending c) ?_
      intro c k hc
      -- The children of another fiber are not its own.
      refine hothers c k fun hci => hp ?_
      rw [hc] at hci
      exact Option.some.inj hci

/-! ### Telling fibers to stop -/

theorem nudge (h : Family pending s) (hn : Nudge i s s') : Family pending s' := by
  have hended : ∀ c, s'.hasEnded c = s.hasEnded c := fun c => hasEnded_congr (hn.ending?_eq c)
  refine ⟨fun c p hp => h.older c p (hn.parent?_eq c ▸ hp), fun c hc hne => ?_, h.once,
    fun c k hk => by rw [hended]; exact h.ended c k hk, fun p st hst => ?_⟩
  · rw [hn.parent?_eq]
    exact h.rooted c (hn.size_eq ▸ hc) hne
  · have hpass : ∀ st, Keeps pending s p st → Keeps pending s' p st := fun st hk =>
      hk.congr (fun c => by rw [hn.parent?_eq]) (fun c _ => hn.ending?_eq c) fun _ _ _ => Iff.rfl
    by_cases hp : p = i
    · subst hp
      rcases hn.state?_cases with hsame | ⟨next, hold, hnew⟩ | ⟨cs, left, e, told, hold, hnew⟩
      · exact hpass st (h.keeps p st (hsame ▸ hst))
      · -- A sleeping fiber has no children left, so it may end at once.
        rw [hnew] at hst
        cases hst
        have hkids : Kids pending s p [] := h.keeps p _ hold
        exact hpass (.queued (.stop .cancelled)) hkids.all_ended
      · rw [hnew] at hst
        cases hst
        have hclearing : Keeps pending s p (.clearing cs left e told) := h.keeps p _ hold
        exact hpass (.clearing cs left e true) hclearing
    · exact hpass st (h.keeps p st (hn.state?_eq hp ▸ hst))

theorem nudges {P : Nat → Prop} (h : Family pending s) (hn : Nudges P s s') : Family pending s' :=
  hn.keeps (fun _ hstep hs => hs.nudge hstep) h

/-! ### Ends -/

theorem mem_endReports {c : Nat} {k : Bool} (h : Event.report c k ∈ s.endReports i) :
    c = i ∧ ∃ q, s.parent? i = some q ∧ (k = true → s.isClearing q = true) := by
  unfold endReports at h
  split at h
  · cases h
  · rename_i q hq
    split at h
    · rename_i hclearing
      simp only [List.mem_cons, List.not_mem_nil, or_false, Event.report.injEq] at h
      rcases h with ⟨rfl, rfl⟩ | ⟨rfl, rfl⟩
      · exact ⟨rfl, q, hq, by simp⟩
      · exact ⟨rfl, q, hq, fun _ => hclearing⟩
    · simp only [List.mem_cons, List.not_mem_nil, or_false, Event.report.injEq] at h
      obtain ⟨rfl, rfl⟩ := h
      exact ⟨rfl, q, hq, by simp⟩

theorem report_mem_endReports {q : Nat} {k : Bool} (hq : s.parent? i = some q)
    (hk : k = true → s.isClearing q = true) : Event.report i k ∈ s.endReports i := by
  unfold endReports
  rw [hq]
  cases k with
  | false => exact List.mem_cons_self
  | true => simp [hk rfl]

theorem count_endReports_le (c : Nat) (k : Bool) : (s.endReports i).count (.report c k) ≤ 1 := by
  refine List.nodup_iff_count_le_one.1 ?_ _
  unfold endReports
  split
  · exact List.nodup_nil
  · split <;> simp

/-- A fiber ends whose children have ended. -/
theorem finish (h : Family pending s) {st : FiberState} (hstate : s.state? i = some st)
    (hlive : ∀ e, st ≠ .ended e) (hchildren : ∀ c, s.parent? c = some i → s.hasEnded c = true)
    (e : Ending) : Family (pending ++ s.endReports i) (s.finish i e) := by
  have hne := h.parent_ne i
  have hnot : s.hasEnded i = false := not_hasEnded_of_state hstate hlive
  have hself : (s.finish i e).ending? i = some e := by
    rw [ending?_eq_some_iff, state?_finish_self hne, hstate]
    rfl
  have hother : ∀ c, c ≠ i → (s.finish i e).ending? c = s.ending? c :=
    fun c hc => ending?_congr (state?_finish_of_ne hne hc)
  have hended : ∀ c, s.hasEnded c = true → (s.finish i e).hasEnded c = true := by
    intro c hc
    by_cases hci : c = i
    · subst hci
      rw [hnot] at hc
      cases hc
    · rwa [hasEnded_congr (hother c hci)]
  -- A fiber that has not ended has nothing to report yet.
  have hfresh : ∀ k, Event.report i k ∉ pending := by
    intro k hk
    have := h.ended i k hk
    rw [hnot] at this
    cases this
  refine ⟨fun c p hp => ?_, fun c hc hcm => ?_, fun c k => ?_, fun c k hk => ?_, fun p st' hst => ?_⟩
  · exact h.older c p (parent?_finish hne ▸ hp)
  · rw [parent?_finish hne]
    exact h.rooted c (size_finish hne ▸ hc) hcm
  · -- The reports of the fiber itself are new, and those of others are not made.
    rw [List.count_append]
    by_cases hci : c = i
    · subst hci
      rw [List.count_eq_zero.2 (hfresh k), Nat.zero_add]
      exact count_endReports_le c k
    · rw [List.count_eq_zero.2 fun hmem => hci (mem_endReports hmem).1, Nat.add_zero]
      exact h.once c k
  · rcases List.mem_append.1 hk with hk | hk
    · exact hended c (h.ended c k hk)
    · obtain ⟨rfl, -⟩ := mem_endReports hk
      rw [hasEnded_eq_isSome, hself]
      rfl
  · by_cases hp : p = i
    · subst hp
      rw [state?_finish_self hne, hstate] at hst
      cases hst
      intro c hc
      rw [parent?_finish hne] at hc
      exact hended c (hchildren c hc)
    · rw [state?_finish_of_ne hne hp] at hst
      have hold := h.keeps p st' hst
      have hmem : ∀ c k, c ≠ i → (Event.report c k ∈ pending ++ s.endReports i ↔
          Event.report c k ∈ pending) := by
        intro c k hc
        rw [List.mem_append, or_iff_left fun hin => hc (mem_endReports hin).1]
      refine hold.pass (fun c => by rw [parent?_finish hne]) ?_ ?_ ?_ ?_
      · intro c _ hsettled
        have hci : c ≠ i := by
          rintro rfl
          rw [hsettled.1] at hnot
          cases hnot
        exact ⟨hended c hsettled.1, fun k hk => hsettled.2 k ((hmem c k hci).1 hk)⟩
      · intro c e' _ he'
        have hci : c ≠ i := by
          rintro rfl
          rw [hasEnded_eq_isSome, he'] at hnot
          cases hnot
        rw [hother c hci, he']
      -- Only a parent that clears its children away is told of an end in this way.
      · intro hclearing c hc hno hin
        rcases List.mem_append.1 hin with hin | hin
        · exact hno hin
        · obtain ⟨rfl, q, hq, hk⟩ := mem_endReports hin
          rw [hc] at hq
          cases hq
          obtain ⟨cs, left, e', told, hst'⟩ := isClearing_iff.1 (hk rfl)
          rw [hst] at hst'
          cases hst'
          exact hclearing cs left e' told rfl
      · -- The end of a child does not end the wait for it: its report does.
        intro k c hc htrue _
        by_cases hci : c = i
        · subst hci
          rw [isAwaited_of_not_ended k hnot]
          refine isAwaited_of_mem (List.mem_append_right _ (report_mem_endReports hc fun hk => ?_))
          obtain ⟨cs, left, e', told, rfl⟩ := htrue hk
          exact isClearing_iff.2 ⟨cs, left, e', told, hst⟩
        · simp only [isAwaited, hasEnded_congr (hother c hci), hmem c k hci]

/-! ### Clearing away -/

theorem under_le (h : Family pending s) {a b : Nat} (hab : s.Under a b) : a ≤ b := by
  induction hab with
  | refl => exact Nat.le_refl a
  | tail _ hstep ih => exact Nat.le_trans ih (Nat.le_of_lt (h.older _ _ hstep))

theorem mem_lateReports {cs : List Nat} {k : Bool} :
    Event.report c k ∈ s.lateReports cs ↔ c ∈ cs ∧ s.hasEnded c = true ∧ k = true := by
  simp only [lateReports, List.mem_map, List.mem_filter, Event.report.injEq]
  constructor
  · rintro ⟨d, ⟨hd, hended⟩, rfl, rfl⟩
    exact ⟨hd, hended, rfl⟩
  · rintro ⟨hc, hended, rfl⟩
    exact ⟨c, ⟨hc, hended⟩, rfl, rfl⟩

/-- A fiber begins to wait for its children to be cleared away. Those that have ended already
report at once, so that it hears of each of them once. -/
theorem beginClearing (h : Family pending s) {st : FiberState} {cs : List Nat}
    (hstate : s.state? i = some st) (hlive : ∀ e, st ≠ .ended e) (hkids : Kids pending s i cs)
    (hne : cs ≠ []) (hnone : ∀ c ∈ cs, Event.report c true ∉ pending) (e : Ending) :
    Family (pending ++ s.lateReports cs) (s.setState i (.clearing cs cs.length e false)) := by
  have hmem : ∀ c k, c ∉ cs → (Event.report c k ∈ pending ++ s.lateReports cs ↔
      Event.report c k ∈ pending) := by
    intro c k hc
    rw [List.mem_append, or_iff_left fun hin => hc (mem_lateReports.1 hin).1]
  -- The children are different, so none of the late reports is made twice.
  have hnodup : (s.lateReports cs).Nodup :=
    (hkids.nodup.filter _).map fun _ _ heq => (Event.report.inj heq).1
  refine h.setState hstate hlive (by simp) ?_ ?_ ?_ ⟨⟨hkids.nodup, hkids.own, ?_⟩, ?_, ?_⟩
  · intro c k
    rw [List.count_append]
    by_cases hin : Event.report c k ∈ s.lateReports cs
    · obtain ⟨hc, -, rfl⟩ := mem_lateReports.1 hin
      rw [List.count_eq_zero.2 (hnone c hc), Nat.zero_add]
      exact List.nodup_iff_count_le_one.1 hnodup _
    · rw [List.count_eq_zero.2 hin, Nat.add_zero]
      exact h.once c k
  · intro c k hk
    rcases List.mem_append.1 hk with hk | hk
    · exact h.ended c k hk
    · exact (mem_lateReports.1 hk).2.1
  · exact fun c k hc => hmem c k fun hcs => hc (hkids.own c hcs)
  · intro c hc hcs
    have hsettled := hkids.others c hc hcs
    exact ⟨hsettled.1, fun k hk => hsettled.2 k ((hmem c k hcs).1 hk)⟩
  · -- Of each child there is still something to hear: its end, or the report just made.
    have hawaited : ∀ c ∈ cs, isAwaited (pending ++ s.lateReports cs) s true c = true := by
      intro c hc
      by_cases hended : s.hasEnded c
      · exact isAwaited_of_mem (List.mem_append_right _ (mem_lateReports.2 ⟨hc, hended, rfl⟩))
      · exact isAwaited_of_not_ended true (by simpa using hended)
    exact (List.countP_eq_length.2 hawaited).symm
  · exact List.length_pos_iff.2 hne

/-- Telling its children to stop does not change a fiber. -/
theorem fiber_cancelAll (h : Family pending s) {cs : List Nat}
    (hown : ∀ c ∈ cs, s.parent? c = some i) :
    (s.cancelAll cs).fibers[i]? = s.fibers[i]? := by
  have hnudges : Nudges (fun j => ∃ c ∈ cs, s.Under c j) s (s.cancelAll cs) :=
    nudges_cancelAll cs s h.linked fun c hc j hj => ⟨c, hc, hj⟩
  refine hnudges.fiber_eq ?_
  rintro ⟨c, hc, hci⟩
  have hle := h.under_le hci
  have hlt := h.older c i (hown c hc)
  omega

/-- A fiber clears its children away. -/
theorem clear (h : Family pending s) {r : Resumption} {cs : List Nat}
    (hstate : s.state? i = some (.queued r)) (hkids : Kids pending s i cs) (hne : cs ≠ [])
    (hnone : ∀ c ∈ cs, Event.report c true ∉ pending) (e : Ending) :
    ∃ extra, (s.clear i cs e).queue.toList = s.queue.toList ++ extra ∧
      Family (pending ++ extra) (s.clear i cs e) := by
  have hnudges : Nudges (fun j => ∃ c ∈ cs, s.Under c j) s (s.cancelAll cs) :=
    nudges_cancelAll cs s h.linked fun c hc j hj => ⟨c, hc, hj⟩
  obtain ⟨js, hjs⟩ := hnudges.queue_eq
  have hstate' : (s.cancelAll cs).state? i = some (.queued r) := by
    rw [← hstate]
    simp only [state?, h.fiber_cancelAll hkids.own]
  have hmem : ∀ c k, Event.report c k ∈ pending ++ js.map Event.resume ↔
      Event.report c k ∈ pending := by
    intro c k
    simp
  have hkids' : Kids (pending ++ js.map Event.resume) (s.cancelAll cs) i cs := by
    refine ⟨hkids.nodup, fun c hc => ?_, fun c hc hcs => ?_⟩
    · rw [hnudges.parent?_eq]
      exact hkids.own c hc
    · rw [hnudges.parent?_eq] at hc
      have hsettled := hkids.others c hc hcs
      rw [Settled, hasEnded_congr (hnudges.ending?_eq c)]
      exact ⟨hsettled.1, fun k hk => hsettled.2 k ((hmem c k).1 hk)⟩
  have htold : Family (pending ++ js.map Event.resume) (s.cancelAll cs) :=
    (h.nudges hnudges).append (by simp)
  have hcleared := htold.beginClearing hstate' (by simp) hkids' hne
    (fun c hc hin => hnone c hc ((hmem c true).1 hin)) e
  refine ⟨js.map Event.resume ++ (s.cancelAll cs).lateReports cs, ?_, ?_⟩
  · rw [clear_eq]
    simp [hjs]
  · rw [clear_eq, ← List.append_assoc]
    exact hcleared.of_same (fun _ => rfl) (fun _ => rfl) rfl

/-! ### Forks -/

section
variable {r : Resumption} {branches : List Process} {next : Unit → Process}

/-- The fibers that a fork starts are not there before it. -/
theorem not_hasEnded_of_mem_forked (hc : c ∈ s.forked branches) : s.hasEnded c = false := by
  rw [← Bool.not_eq_true, hasEnded_iff]
  rintro ⟨e, he⟩
  have hlt := lt_size_of_state? he
  have hle := (mem_forked.1 hc).1
  omega

/-- A fiber that forks waits for all fibers that it starts. -/
theorem keeps_fork (h : Family pending s) (hstate : s.state? i = some (.queued r))
    (hkids : Kids pending s i []) : Keeps pending (s.fork i branches next) i
      (.joining (s.forked branches) branches.length next) := by
  have hi := lt_size_of_state? hstate
  have hawaited : ∀ c ∈ s.forked branches,
      isAwaited pending (s.fork i branches next) false c = true := by
    intro c hc
    apply isAwaited_of_not_ended
    rw [hasEnded_congr (ending?_fork hstate)]
    exact not_hasEnded_of_mem_forked hc
  refine ⟨⟨nodup_forked branches, fun c hc => ?_, fun c hc hcs => ?_⟩, fun c hc hin => ?_,
    ?_, fun hne => ?_, fun c hc hawait => ?_⟩
  · exact (parent?_fork_iff hi).2 (.inr ⟨hc, rfl⟩)
  · rcases (parent?_fork_iff hi).1 hc with hold | ⟨hin, -⟩
    · have hsettled := hkids.others c hold (by simp)
      exact ⟨by rw [hasEnded_congr (ending?_fork hstate), hsettled.1], hsettled.2⟩
    · exact absurd hin hcs
  · have hend := h.ended c true hin
    rw [not_hasEnded_of_mem_forked hc] at hend
    cases hend
  · rw [← length_forked (s := s) branches]
    exact (List.countP_eq_length.2 hawaited).symm
  · rw [← length_forked (s := s) branches]
    exact List.length_pos_iff.2 hne
  · rw [hawaited c hc] at hawait
    cases hawait

/-- A fiber whose children are settled starts others and waits for them. -/
theorem fork (h : Family pending s) (hstate : s.state? i = some (.queued r))
    (hkids : Kids pending s i []) (branches : List Process) (next : Unit → Process) :
    Family pending (s.fork i branches next) := by
  have hi := lt_size_of_state? hstate
  refine ⟨fun c p hp => ?_, fun c hc hne => ?_, h.once, fun c k hk => ?_, fun p st hst => ?_⟩
  · rcases (parent?_fork_iff hi).1 hp with hold | ⟨hin, rfl⟩
    · exact h.older c p hold
    · have hle := (mem_forked.1 hin).1
      omega
  · by_cases hc' : c < s.fibers.size
    · rw [parent?_fork_old hi hc']
      exact h.rooted c hc' hne
    · rw [size_fork] at hc
      exact ⟨i, (parent?_fork_iff hi).2 (.inr ⟨mem_forked.2 ⟨Nat.le_of_not_lt hc', hc⟩, rfl⟩)⟩
  · rw [hasEnded_congr (ending?_fork hstate)]
    exact h.ended c k hk
  · rcases state?_fork_cases hi hst with ⟨rfl, rfl⟩ | ⟨-, hpi, hold⟩ | ⟨k, hk, rfl, rfl⟩
    · exact h.keeps_fork hstate hkids
    · -- The children of the other fibers are what they were.
      refine (h.keeps p st hold).congr (fun c => ?_) (fun c _ => ending?_fork hstate)
        fun _ _ _ => Iff.rfl
      rw [parent?_fork_iff hi]
      simp [hpi]
    · have hnone : ∀ c, (s.fork i branches next).parent? c ≠ some (s.fibers.size + k) := by
        intro c hc
        rcases (parent?_fork_iff hi).1 hc with hold | ⟨-, hself⟩
        · have hlt := lt_size_of_parent? hold
          have hle := h.older c _ hold
          omega
        · omega
      exact ⟨⟨List.nodup_nil, by simp, fun c hc => absurd hc (hnone c)⟩, by simp⟩

end

/-! ### Reports -/

theorem countP_eq_succ {f g : Nat → Bool} {cs : List Nat} (hnodup : cs.Nodup) (hc : c ∈ cs)
    (hf : f c = true) (hg : g c = false) (hother : ∀ d ∈ cs, d ≠ c → f d = g d) :
    cs.countP f = cs.countP g + 1 := by
  induction cs with
  | nil => cases hc
  | cons d rest ih =>
    obtain ⟨hd, hrest⟩ := List.nodup_cons.1 hnodup
    rcases List.mem_cons.1 hc with rfl | hmem
    · have hsame : rest.countP f = rest.countP g := by
        refine List.countP_congr fun e he => ?_
        rw [hother e (List.mem_cons_of_mem c he) fun hec => hd (hec ▸ he)]
      simp [hf, hg, hsame]
    · have hne : d ≠ c := fun hdc => hd (hdc ▸ hmem)
      have hfirst : f d = g d := hother d List.mem_cons_self hne
      have hih := ih hrest hmem fun e he => hother e (List.mem_cons_of_mem d he)
      rw [List.countP_cons, List.countP_cons, hih, hfirst]
      omega

/-- A report is heard once. The wait for the children is then for one child less. -/
theorem heard {clearing : Bool} (h : Family (.report c clearing :: pending) s)
    (hc : s.parent? c = some p) {cs : List Nat}
    (hkids : Kids (.report c clearing :: pending) s p cs) :
    c ∈ cs ∧ Kids pending s p cs ∧ isAwaited pending s clearing c = false ∧
      cs.countP (isAwaited (.report c clearing :: pending) s clearing) =
        cs.countP (isAwaited pending s clearing) + 1 := by
  have hmem : c ∈ cs :=
    hkids.mem_of_not_settled hc fun hsettled => hsettled.2 clearing List.mem_cons_self
  -- It is not made twice, so after this one there is none.
  have hgone : Event.report c clearing ∉ pending := by
    have honce := h.once c clearing
    rw [List.count_cons_self] at honce
    exact List.count_eq_zero.1 (by omega)
  have hheard : isAwaited pending s clearing c = false :=
    isAwaited_eq_false_iff.2 ⟨h.ended c clearing List.mem_cons_self, hgone⟩
  refine ⟨hmem, ⟨hkids.nodup, hkids.own, fun d hd hdcs => ?_⟩, hheard, ?_⟩
  · have hsettled := hkids.others d hd hdcs
    exact ⟨hsettled.1, fun k hk => hsettled.2 k (List.mem_cons_of_mem _ hk)⟩
  · refine countP_eq_succ hkids.nodup hmem (isAwaited_of_mem List.mem_cons_self) hheard ?_
    intro d _ hdc
    simp [isAwaited, hdc]

/-- Taking a report changes the parent alone. -/
theorem take {clearing : Bool} (h : Family (.report c clearing :: pending) s)
    (hc : s.parent? c = some p) {st st' : FiberState} (hold : s.state? p = some st)
    (hlive : ∀ e, st ≠ .ended e) (hlive' : ∀ e, st' ≠ .ended e)
    (hkeeps : Keeps pending s p st') : Family pending (s.setState p st') := by
  refine h.setState hold hlive hlive' ?_ ?_ ?_ hkeeps
  · intro d k
    exact Nat.le_trans List.count_le_count_cons (h.once d k)
  · exact fun d k hk => h.ended d k (List.mem_cons_of_mem _ hk)
  · intro d k hd
    have hdc : d ≠ c := by
      rintro rfl
      exact hd hc
    simp [hdc]

/-- A child is not awaited if none is. -/
theorem not_awaited {k : Bool} {cs : List Nat} (hzero : cs.countP (isAwaited pending s k) = 0)
    (hc : c ∈ cs) : s.hasEnded c = true ∧ Event.report c k ∉ pending :=
  isAwaited_eq_false_iff.1 (Bool.eq_false_iff.2 (List.countP_eq_zero.1 hzero c hc))

section
variable {cs : List Nat} {left : Nat}

/-- After the last report for which it waits a fiber goes on. -/
theorem joins {next : Unit → Process} (h : Family (.report c false :: pending) s)
    (hparent : s.parent? c = some p) (hstate : s.state? p = some (.joining cs left next))
    (hleft : left ≤ 1) : Family pending (s.setState p (.queued (.go cs next))) := by
  obtain ⟨hkids, hnone, hcount, -, -⟩ := h.keeps p _ hstate
  obtain ⟨-, hkids', -, hless⟩ := h.heard hparent hkids
  -- This was the last report to be awaited, so no child is awaited any more.
  have hzero : cs.countP (isAwaited pending s false) = 0 := by omega
  have hsettled : ∀ d ∈ cs, Settled pending s d := by
    intro d hd
    have hd' := not_awaited hzero hd
    refine ⟨hd'.1, fun k hk => ?_⟩
    cases k with
    | false => exact hd'.2 hk
    | true => exact hnone d hd (List.mem_cons_of_mem _ hk)
  exact h.take hparent hstate (by simp) (by simp) ⟨hkids', hsettled⟩

/-- After any other report it waits for one child less. -/
theorem counts {next : Unit → Process} {context : Context}
    (h : Family (.report c false :: pending) s)
    (hchild : s.state? c = some (.ended (.finished context))) (hparent : s.parent? c = some p)
    (hstate : s.state? p = some (.joining cs left next)) (hleft : 1 < left) :
    Family pending (s.setState p (.joining cs (left - 1) next)) := by
  obtain ⟨hkids, hnone, hcount, -, hfinished⟩ := h.keeps p _ hstate
  obtain ⟨-, hkids', -, hless⟩ := h.heard hparent hkids
  refine h.take hparent hstate (by simp) (by simp)
    ⟨hkids', fun d hd hin => hnone d hd (List.mem_cons_of_mem _ hin), by omega,
      fun _ => by omega, fun d hd hawait => ?_⟩
  by_cases hdc : d = c
  · subst hdc
    exact ⟨context, ending?_eq_some_iff.2 hchild⟩
  · refine hfinished d hd ?_
    rw [isAwaited_eq_false_iff] at hawait ⊢
    exact ⟨hawait.1, by simpa [hdc] using hawait.2⟩

/-- After the report of a child that has not finished it clears the others away. -/
theorem breaks {next : Unit → Process} (h : Family (.report c false :: pending) s)
    (hparent : s.parent? c = some p) (hstate : s.state? p = some (.joining cs left next))
    (e : Ending) : Family pending (s.setState p (.queued (.clear cs e))) := by
  obtain ⟨hkids, hnone, -, -, -⟩ := h.keeps p _ hstate
  obtain ⟨hmem, hkids', -, -⟩ := h.heard hparent hkids
  exact h.take hparent hstate (by simp) (by simp) ⟨hkids', List.ne_nil_of_mem hmem,
    fun d hd hin => hnone d hd (List.mem_cons_of_mem _ hin)⟩

/-- After the last report of the children that it clears away a fiber ends. -/
theorem cleared {last : Ending} {told : Bool} (h : Family (.report c true :: pending) s)
    (hparent : s.parent? c = some p) (hstate : s.state? p = some (.clearing cs left last told))
    (hleft : left ≤ 1) : Family pending (s.setState p (.queued (.stop (last.unless told)))) := by
  obtain ⟨hkids, hcount, -⟩ := h.keeps p _ hstate
  obtain ⟨-, hkids', -, hless⟩ := h.heard hparent hkids
  have hzero : cs.countP (isAwaited pending s true) = 0 := by omega
  have hended : ∀ d, s.parent? d = some p → s.hasEnded d = true := by
    intro d hd
    by_cases hdcs : d ∈ cs
    · exact (not_awaited hzero hdcs).1
    · exact (hkids'.others d hd hdcs).1
  exact h.take hparent hstate (by simp) (by simp) hended

/-- After any other it clears one child less away. -/
theorem discounts {last : Ending} {told : Bool} (h : Family (.report c true :: pending) s)
    (hparent : s.parent? c = some p) (hstate : s.state? p = some (.clearing cs left last told))
    (hleft : 1 < left) : Family pending (s.setState p (.clearing cs (left - 1) last told)) := by
  obtain ⟨hkids, hcount, -⟩ := h.keeps p _ hstate
  obtain ⟨-, hkids', -, hless⟩ := h.heard hparent hkids
  exact h.take hparent hstate (by simp) (by simp) ⟨hkids', by omega, by omega⟩

end

/-- An event that has nothing to act on may be forgotten. -/
theorem skip {event : Event} (h : Family (event :: pending) s) (hidle : s.Idle event) :
    Family pending s := by
  refine ⟨h.older, h.rooted, fun c k => Nat.le_trans List.count_le_count_cons (h.once c k),
    fun c k hk => h.ended c k (List.mem_cons_of_mem _ hk), fun p st hst => ?_⟩
  refine (h.keeps p st hst).pass (fun _ => Iff.rfl) ?_ (fun _ _ _ he => he) ?_ ?_
  · exact fun c _ hsettled =>
      ⟨hsettled.1, fun k hk => hsettled.2 k (List.mem_cons_of_mem _ hk)⟩
  · exact fun _ c _ hno hin => hno (List.mem_cons_of_mem _ hin)
  · -- The parent of a child whose report has nothing to act on does not wait for that report.
    intro k c hc htrue hfalse
    have hne : event ≠ .report c k := by
      rintro rfl
      obtain ⟨e, he⟩ := hasEnded_iff.1 (h.ended c k List.mem_cons_self)
      cases k with
      | false =>
        obtain ⟨cs, left, next, rfl⟩ := hfalse rfl
        exact hidle p e cs left next hc he hst
      | true =>
        obtain ⟨cs, left, last, told, rfl⟩ := htrue rfl
        exact hidle p e cs left last told hc he hst
    simp [isAwaited, hne.symm]

/-! ### Events -/

/-- A step that queues nothing leaves the pending events as they are. -/
theorem quiet (h : Family pending s') (hqueue : s'.queue = s.queue) :
    ∃ extra, s'.queue.toList = s.queue.toList ++ extra ∧ Family (pending ++ extra) s' :=
  ⟨[], by simp [hqueue], by simpa using h⟩

/-- A fiber that is queued is to be resumed. -/
theorem enqueue {r : Resumption} (h : Family pending (s.setState i (.queued r))) :
    ∃ extra, (s.enqueue i r).queue.toList = s.queue.toList ++ extra ∧
      Family (pending ++ extra) (s.enqueue i r) :=
  ⟨[.resume i], by simp,
    (h.append (by simp)).of_same (fun _ => rfl) (fun _ => rfl) rfl⟩

/-- A fiber that goes on has settled children only. -/
theorem kids_of_go (h : Family pending s) {cs : List Nat} {next : Unit → Process}
    (hstate : s.state? i = some (.queued (.go cs next))) : Kids pending s i [] := by
  have hkeeps : Kids pending s i cs ∧ ∀ c ∈ cs, Settled pending s c := h.keeps i _ hstate
  exact hkeeps.1.all_settled hkeeps.2

/-- **Letting an event happen keeps the families in order.** -/
theorem happens {env : Surroundings} {transport : Transport} {event : Event}
    (h : Family (event :: pending) s) (hstep : Happens env transport s event s') :
    ∃ extra, s'.queue.toList = s.queue.toList ++ extra ∧ Family (pending ++ extra) s' := by
  -- Events that are no reports are forgotten at once, and so is that a resumed fiber was told to
  -- stop.
  have hdrop : (∀ c k, event ≠ .report c k) → Family pending s := by
    intro hne
    refine h.of_count fun c k => ?_
    rw [List.count_cons_of_ne (hne c k)]
  have hresumed : ∀ {i}, event = .resume i → Family pending (s.setCancelled i false) := by
    rintro i rfl
    exact (hdrop (by simp)).of_same (by simp) (by simp) (by simp)
  cases hstep with
  | @stops i r e hstate hend =>
    have hs := hresumed rfl
    have hstate' : (s.setCancelled i false).state? i = some (.queued r) := by simpa using hstate
    refine ⟨_, queue_finish (hs.parent_ne i), hs.finish hstate' (by simp) ?_ e⟩
    rcases hend with ⟨next, -, rfl, -⟩ | ⟨last, rfl, -⟩
    · exact (hs.kids_of_go hstate').all_ended
    · exact hs.keeps i _ hstate'
  | @clears i r cs e hstate hend =>
    have hs := hresumed rfl
    have hstate' : (s.setCancelled i false).state? i = some (.queued r) := by simpa using hstate
    rcases hend with ⟨next, -, rfl, hne, -⟩ | ⟨last, rfl, -⟩
    · obtain ⟨hkids, hsettled⟩ : Kids pending (s.setCancelled i false) i cs ∧ ∀ c ∈ cs,
        Settled pending (s.setCancelled i false) c := hs.keeps i _ hstate'
      exact hs.clear hstate' hkids hne (fun c hc => (hsettled c hc).2 true) e
    · obtain ⟨hkids, hne, hnone⟩ : Kids pending (s.setCancelled i false) i cs ∧ cs ≠ [] ∧
        ∀ c ∈ cs, Event.report c true ∉ pending := hs.keeps i _ hstate'
      exact hs.clear hstate' hkids hne hnone e
  | @ends i cs next w e hstate htold hrun =>
    have hs : Family pending ((s.setCancelled i false).setWorld w) :=
      (hresumed rfl).of_same (fun _ => rfl) (fun _ => rfl) rfl
    have hstate' : ((s.setCancelled i false).setWorld w).state? i = some (.queued (.go cs next)) := by
      simpa using hstate
    exact ⟨_, queue_finish (hs.parent_ne i),
      hs.finish hstate' (by simp) (hs.kids_of_go hstate').all_ended e⟩
  | @sleeps i cs next next' w seconds hstate htold hrun =>
    have hs : Family pending
        (((s.setCancelled i false).setWorld w).setTimer seconds (.ring i)) :=
      (hresumed rfl).of_same (fun _ => rfl) (fun _ => rfl) rfl
    have hstate' : (((s.setCancelled i false).setWorld w).setTimer seconds (.ring i)).state? i =
        some (.queued (.go cs next)) := by
      simpa using hstate
    refine quiet (hs.setState hstate' (by simp) (by simp) hs.once hs.ended
      (fun _ _ _ => Iff.rfl) (hs.kids_of_go hstate')) (by simp)
  | @forks i cs next next' w branches hstate htold hrun =>
    have hs : Family pending ((s.setCancelled i false).setWorld w) :=
      (hresumed rfl).of_same (fun _ => rfl) (fun _ => rfl) rfl
    have hstate' : ((s.setCancelled i false).setWorld w).state? i = some (.queued (.go cs next)) := by
      simpa using hstate
    refine ⟨_, queue_fork, ?_⟩
    exact (hs.fork hstate' (hs.kids_of_go hstate') branches next').append (by simp)
  | @wakes i next hstate =>
    have hs := hdrop (by simp)
    have hkids : Kids pending s i [] := hs.keeps i _ hstate
    exact enqueue (hs.setState hstate (by simp) (by simp) hs.once hs.ended (fun _ _ _ => Iff.rfl)
      ⟨hkids, by simp⟩)
  | @joins c p context cs left next hchild hparent hstate hleft =>
    exact enqueue (h.joins hparent hstate hleft)
  | @counts c p context cs left next hchild hparent hstate hleft =>
    exact quiet (h.counts hchild hparent hstate hleft) (by simp)
  | @breaks c p e cs left next hchild hfailed hparent hstate =>
    exact enqueue (h.breaks hparent hstate e)
  | @cleared c p e last cs left told hchild hparent hstate hleft =>
    exact enqueue (h.cleared hparent hstate hleft)
  | @discounts c p e last cs left told hchild hparent hstate hleft =>
    exact quiet (h.discounts hparent hstate hleft) (by simp)
  | expires =>
    exact ⟨[.cutOff], by simp,
      ((hdrop (by simp)).append (by simp)).of_same (fun _ => rfl) (fun _ => rfl) rfl⟩
  | cuts =>
    have hs := hdrop (by simp)
    have hnudges := nudges_cancel s.fibers.size main s hs.linked
    obtain ⟨js, hjs⟩ := hnudges.queue_eq
    exact ⟨js.map Event.resume, hjs, (hs.nudges hnudges).append (by simp)⟩
  | nothing hidle => exact quiet (h.skip hidle) rfl

end Family

end Schedule

end Workgraph
