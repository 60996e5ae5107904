import Workgraph.Engine.Schedule
import Workgraph.Proofs.Number.Nearest
/-!
# Points in time

Sums of points in time and waits. Rounding does not go below a number that is not above the exact
result, so time does not run backwards, and a timer that has been set is due at the turn for which
it is the first.
-/

namespace Workgraph

namespace Binary64

/-- A point in time: a number that is not below zero. -/
inductive IsTime : Binary64 → Prop where
  | never : IsTime (infinite false)
  | positive (units : Nat) (h : Representable units) : IsTime (finite false units h)
  /-- Zero may have either sign. -/
  | start (negative : Bool) (h : Representable 0) : IsTime (finite negative 0 h)

theorem zero_eq (negative : Bool) : ∃ h, zero negative = .finite negative 0 h := by
  have hpos : 0 < overflowUnits := by
    unfold overflowUnits
    generalize 1024 + unitBits = n
    exact Nat.two_pow_pos n
  have h : Representable 0 := ⟨hpos, Nat.zero_mod _⟩
  refine ⟨h, ?_⟩
  unfold zero ofUnits
  rw [dif_pos h]

theorem isTime_zero (negative : Bool) : (zero negative).IsTime := by
  obtain ⟨h, hzero⟩ := zero_eq negative
  rw [hzero]
  exact .start negative h

theorem isTime_ofUnits (units : Nat) : (ofUnits false units).IsTime := by
  unfold ofUnits
  cases Classical.em (Representable units) with
  | inl h =>
    rw [dif_pos h]
    exact .positive units h
  | inr h =>
    rw [dif_neg h]
    exact .never

/-- Waits are positive. -/
theorem wait_cases {x : Binary64} (h : isWait x = true) :
    x = .infinite false ∨ ∃ v hv, 0 < v ∧ x = .finite false v hv := by
  obtain ⟨hz, hzero⟩ := zero_eq false
  unfold isWait less at h
  rw [hzero] at h
  cases x with
  | nan => simp [compare?] at h
  | infinite negative =>
    cases negative with
    | false => exact Or.inl rfl
    | true => simp [compare?] at h
  | finite negative v hv =>
    cases negative with
    | false =>
      refine Or.inr ⟨v, hv, ?_, rfl⟩
      simp [compare?, compare_lt_iff_lt] at h
      omega
    | true =>
      simp [compare?, compare_lt_iff_lt] at h
      omega

theorem add_def (x y : Binary64) : x + y = add x y := rfl

theorem add_finite (u v : Nat) (hu : Representable u) (hv : Representable v) :
    (finite false u hu + finite false v hv) = ofUnits false (nearestUnits (u + v) 1) := by
  rw [add_def, add, if_pos rfl, ofQuotient]

theorem infinite_add_finite (negative : Bool) (v : Nat) (hv : Representable v) :
    (infinite false + finite negative v hv) = infinite false := by
  rw [add_def, add]
  · simp
  · simp

theorem finite_add_infinite (negative : Bool) (u : Nat) (hu : Representable u) :
    (finite negative u hu + infinite false) = infinite false := by
  rw [add_def, add]
  · simp
  · simp

/-- A wait leads from a point in time to another one. -/
theorem IsTime.add {clock wait : Binary64} (hclock : clock.IsTime) (hwait : isWait wait = true) :
    (clock + wait).IsTime := by
  rcases wait_cases hwait with rfl | ⟨v, hv, hpos, rfl⟩
  · cases hclock with
    | never =>
      rw [add_def, Binary64.add, if_pos rfl]
      exact .never
    | positive u hu =>
      rw [finite_add_infinite]
      exact .never
    | start negative hu =>
      rw [finite_add_infinite]
      exact .never
  · cases hclock with
    | never =>
      rw [infinite_add_finite]
      exact .never
    | positive u hu =>
      rw [add_finite]
      exact isTime_ofUnits _
    | start negative hu =>
      cases negative with
      | false =>
        rw [add_finite]
        exact isTime_ofUnits _
      -- A negative zero is added in a case of its own.
      | true =>
        rw [add_def, Binary64.add, if_neg (by simp), if_neg (by omega), if_neg (by omega),
          ofQuotient]
        exact isTime_ofUnits _

theorem sameValue_self {x : Binary64} (h : x.IsTime) : x.sameValue x = true := by
  cases h with
  | never => simp [sameValue, compare?]
  | positive u hu => simp [sameValue, compare?]
  | start negative hu => simp [sameValue, compare?]

theorem isWait_resolution : isWait Schedule.resolution = true := by decide +kernel

theorem less_finite_iff {s t : Bool} {u v : Nat} {hu : Representable u} {hv : Representable v} :
    less (finite s u hu) (finite t v hv) = true ↔
      (if s then -(u : Int) else u) < (if t then -(v : Int) else v) := by
  simp [less, compare?, compare_lt_iff_lt]

theorem less_infinite (s : Bool) (u : Nat) (hu : Representable u) :
    less (finite s u hu) (infinite false) = true := by
  simp [less, compare?]

/-- Rounding does not go below a representable count, so a wait does not lead back. -/
theorem less_add {due clock wait : Binary64} (hclock : clock.IsTime) (hdue : due.IsTime)
    (hwait : isWait wait = true) (hless : less due clock = true) :
    less due (clock + wait) = true := by
  cases hclock with
  | never =>
    have hsum : (infinite false + wait) = infinite false := by
      rcases wait_cases hwait with rfl | ⟨v, hv, -, rfl⟩
      · rw [add_def, Binary64.add, if_pos rfl]
      · exact infinite_add_finite false v hv
    rw [hsum]
    exact hless
  | positive u hu =>
    obtain ⟨s, d, hd, rfl⟩ : ∃ s d hd, due = finite s d hd := by
      cases hdue with
      | never => simp [less, compare?] at hless
      | positive d hd => exact ⟨false, d, hd, rfl⟩
      | start s hd => exact ⟨s, 0, hd, rfl⟩
    rw [less_finite_iff] at hless
    rcases wait_cases hwait with rfl | ⟨v, hv, -, rfl⟩
    · rw [finite_add_infinite]
      exact less_infinite s d hd
    · rw [add_finite, ofUnits]
      -- The sum is exact before it is rounded, and not below the clock.
      have hle : u ≤ nearestUnits (u + v) 1 := le_nearestUnits hu.isShort (Nat.le_add_right u v)
      cases Classical.em (Representable (nearestUnits (u + v) 1)) with
      | inl h =>
        rw [dif_pos h, less_finite_iff]
        simp only [Bool.false_eq_true, if_false] at hless ⊢
        omega
      | inr h =>
        rw [dif_neg h]
        exact less_infinite s d hd
  | start negative hu =>
    cases hdue with
    | never => simp [less, compare?] at hless
    | positive d hd =>
      rw [less_finite_iff] at hless
      cases negative <;> simp at hless <;> omega
    | start s hd =>
      rw [less_finite_iff] at hless
      cases negative <;> cases s <;> simp at hless

theorem sameValue_finite_iff {s t : Bool} {u v : Nat} {hu : Representable u}
    {hv : Representable v} : sameValue (finite s u hu) (finite t v hv) = true ↔
      (if s then -(u : Int) else u) = (if t then -(v : Int) else v) := by
  simp [sameValue, compare?]

/-- Of two points in time one is below the other, or they have the same value. -/
theorem less_or_same {x y : Binary64} (hx : x.IsTime) (hy : y.IsTime) :
    less x y = true ∨ less y x = true ∨ sameValue y x = true := by
  have hfinite : ∀ {s t : Bool} {u v : Nat} (hu : Representable u) (hv : Representable v),
      less (finite s u hu) (finite t v hv) = true ∨ less (finite t v hv) (finite s u hu) = true ∨
        sameValue (finite t v hv) (finite s u hu) = true := by
    intro s t u v hu hv
    rw [less_finite_iff, less_finite_iff, sameValue_finite_iff]
    generalize (if s then -(u : Int) else u) = a
    generalize (if t then -(v : Int) else v) = b
    omega
  cases hx with
  | never =>
    cases hy with
    | never => exact Or.inr (Or.inr (sameValue_self .never))
    | positive v hv => exact Or.inr (Or.inl (less_infinite false v hv))
    | start t hv => exact Or.inr (Or.inl (less_infinite t 0 hv))
  | positive u hu =>
    cases hy with
    | never => exact Or.inl (less_infinite false u hu)
    | positive v hv => exact hfinite hu hv
    | start t hv => exact hfinite hu hv
  | start s hu =>
    cases hy with
    | never => exact Or.inl (less_infinite s 0 hu)
    | positive v hv => exact hfinite hu hv
    | start t hv => exact hfinite hu hv

end Binary64

namespace Schedule

/-- The first timer is due when a turn begins for it. -/
theorem isDue_next {clock : Binary64} {t : Timer} (hclock : clock.IsTime) (hdue : t.due.IsTime) :
    isDue (if Binary64.less clock t.due then t.due else clock) t = true := by
  unfold isDue
  rw [Bool.or_eq_true]
  generalize hlater : Binary64.less clock t.due = later
  cases later with
  | true => exact Or.inr (Binary64.sameValue_self hdue)
  | false =>
    rcases Binary64.less_or_same hclock hdue with hless | hless | hsame
    · rw [hlater] at hless
      cases hless
    · exact Or.inl (Binary64.less_add hclock hdue Binary64.isWait_resolution hless)
    · exact Or.inr hsame

end Schedule

end Workgraph
