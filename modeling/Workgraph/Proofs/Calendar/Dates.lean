import Workgraph.Proofs.Calendar.TextOrder
/-!
# Dates and day numbers

Every day has one date, whose month is one of the twelve and whose day lies in the month, and the
date leads back to the number of the day (`Date.dayNumber_ofDayNumber`).
-/

namespace Workgraph.Calendar

/-- A month of the year, and a day of the month. -/
structure Date.IsValid (d : Date) : Prop where
  month_pos : 1 ≤ d.month
  month_le : d.month ≤ 12
  day_pos : 1 ≤ d.day
  day_le : d.day ≤ daysInMonth d.year d.month

theorem daysInMonth_le (year : Int) (month : Nat) : daysInMonth year month ≤ 31 := by
  unfold daysInMonth
  split_ifs <;> omega

/-- A day of a year lies in a month, behind all days of the months before. -/
theorem monthAndDay_spec (year : Int) (months : List Nat) : ∀ {day : Nat},
    day < (months.map (daysInMonth year)).sum → ∃ before month after d,
      months = before ++ month :: after ∧ monthAndDay year months day = (month, d + 1) ∧
        day = (before.map (daysInMonth year)).sum + d ∧ d < daysInMonth year month := by
  induction months with
  | nil => exact fun h => absurd h (Nat.not_lt_zero _)
  | cons month rest ih =>
    intro day h
    rw [monthAndDay]
    split
    · rename_i hday
      exact ⟨[], month, rest, day, rfl, rfl, by simp, hday⟩
    · rename_i hday
      rw [List.map_cons, List.sum_cons] at h
      have hrest : day - daysInMonth year month < (rest.map (daysInMonth year)).sum := by omega
      obtain ⟨before, month', after, d, hmonths, heq, hsum, hlt⟩ := ih hrest
      refine ⟨month :: before, month', after, d, by rw [hmonths]; rfl, heq, ?_, hlt⟩
      rw [List.map_cons, List.sum_cons]
      omega

theorem months_eq : months = List.range' 1 12 := rfl

/-- The months before a month are numbered from one on. -/
theorem sum_before_month (year : Int) {before after : List Nat} {month : Nat}
    (h : months = before ++ month :: after) :
    1 ≤ month ∧ month ≤ 12 ∧ (before.map (daysInMonth year)).sum = daysBeforeMonth year month := by
  rw [months_eq, List.range'_eq_append_iff] at h
  obtain ⟨k, hk, hbefore, hafter⟩ := h
  rw [eq_comm, List.range'_eq_cons_iff] at hafter
  obtain ⟨hmonth, hpos, -⟩ := hafter
  refine ⟨by omega, by omega, ?_⟩
  have hrange : (List.range (month - 1)).map (fun m => daysInMonth year (m + 1)) =
      (List.range' 1 k).map (daysInMonth year) := by
    have hcount : month - 1 = k := by omega
    rw [List.range'_eq_map_range, List.map_map, hcount]
    exact List.map_congr_left fun m _ => by rw [Function.comp_apply, Nat.add_comm]
  rw [daysBeforeMonth, hrange, hbefore]
  rfl

namespace Date

theorem year_ofDayNumber (n : Int) : (ofDayNumber n).year = yearOfDay n := rfl

theorem ofDayNumber_spec (n : Int) : (ofDayNumber n).IsValid ∧ (ofDayNumber n).dayNumber = n := by
  obtain ⟨before, month, after, d, hmonths, heq, hsum, hlt⟩ :=
    monthAndDay_spec (yearOfDay n) months (dayOfYear_lt n)
  obtain ⟨hpos, hle, hbefore⟩ := sum_before_month (yearOfDay n) hmonths
  have hdate : ofDayNumber n = ⟨yearOfDay n, month, d + 1⟩ := by
    have hsplit : monthAndDay (yearOfDay n) [1, 2, 3, 4, 5, 6, 7, 8, 9, 10, 11, 12]
        (n - daysBeforeYear (yearOfDay n)).toNat = (month, d + 1) := heq
    simp only [ofDayNumber, hsplit]
  rw [hdate]
  refine ⟨⟨hpos, hle, Nat.succ_pos d, hlt⟩, ?_⟩
  have hfirst := (yearOfDay_spec n).1
  have hday : (dayOfYear n : Int) = n - daysBeforeYear (yearOfDay n) := by
    unfold dayOfYear
    omega
  simp only [dayNumber, ← hbefore]
  omega

theorem isValid_ofDayNumber (n : Int) : (ofDayNumber n).IsValid := (ofDayNumber_spec n).1

/-- **The date of a day has the number of the day.** -/
@[simp] theorem dayNumber_ofDayNumber (n : Int) : (ofDayNumber n).dayNumber = n :=
  (ofDayNumber_spec n).2

end Date

end Workgraph.Calendar
