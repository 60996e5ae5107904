import Mathlib.Tactic
import Workgraph.Calendar.Moment
import Workgraph.Proofs.Number.DigitText
/-!
# The order of written moments

The full texts of moments in universal time are in the order of the moments, from the year 1 to the
year 9999: the parts of a text stand from the greatest to the least, and each but the last has a
fixed width. So rows can be put in order by text (`Moment.isoText_lt`).
-/

namespace Workgraph

/-! ## Texts that come first -/

/-- Whatever goes on with the first text comes before whatever goes on with the second. -/
def ComesFirst (xs ys : List Char) : Prop := ∀ us vs : List Char, xs ++ us < ys ++ vs

namespace ComesFirst

variable {xs ys : List Char}

theorem of_head {x y : Char} (h : x < y) : ComesFirst (x :: xs) (y :: ys) :=
  fun _ _ => List.cons_lt_cons_iff.2 (.inl h)

theorem append_right (h : ComesFirst xs ys) (us vs : List Char) :
    ComesFirst (xs ++ us) (ys ++ vs) := by
  intro us' vs'
  rw [List.append_assoc, List.append_assoc]
  exact h _ _

theorem append_left (h : ComesFirst xs ys) (ps : List Char) : ComesFirst (ps ++ xs) (ps ++ ys) := by
  intro us vs
  rw [List.append_assoc, List.append_assoc]
  exact List.append_left_lt (h us vs)

theorem cons (h : ComesFirst xs ys) (c : Char) : ComesFirst (c :: xs) (c :: ys) :=
  h.append_left [c]

theorem lt (h : ComesFirst xs ys) : xs < ys := by
  have hlt := h [] []
  rwa [List.append_nil, List.append_nil] at hlt

end ComesFirst

namespace Json

theorem digitsValue_cons (c : Char) (ds : List Char) :
    digitsValue (c :: ds) = digitsValue [c] * 10 ^ ds.length + digitsValue ds :=
  digitsValue_append [c] ds

theorem digitsValue_singleton (c : Char) : digitsValue [c] = c.toNat - 48 := by
  simp [digitsValue]

/-- Digits have the numbers from 48 to 57. -/
theorem toNat_of_isDigit {c : Char} (h : c.isDigit = true) : 48 ≤ c.toNat ∧ c.toNat ≤ 57 :=
  Char.isDigit_iff_toNat.1 h

/-- So many digits are worth less than that power of ten. -/
theorem digitsValue_lt {ds : List Char} (h : AllDigits ds) : digitsValue ds < 10 ^ ds.length := by
  induction ds with
  | nil => decide
  | cons c ds ih =>
    obtain ⟨hc, hds⟩ := List.forall_mem_cons.1 h
    have hfirst := toNat_of_isDigit hc
    have hrest := ih hds
    have hstep : digitsValue [c] * 10 ^ ds.length ≤ 9 * 10 ^ ds.length := by
      apply Nat.mul_le_mul_right
      rw [digitsValue_singleton]
      omega
    rw [digitsValue_cons, List.length_cons, pow_succ]
    omega

/-- Of two texts with as many digits the one that is worth less comes first. -/
theorem comesFirst_of_digitsValue_lt {xs ys : List Char} (hxs : AllDigits xs) (hys : AllDigits ys)
    (hlength : xs.length = ys.length) (h : digitsValue xs < digitsValue ys) : ComesFirst xs ys := by
  induction xs generalizing ys with
  | nil =>
    cases ys with
    | nil => exact absurd h (lt_irrefl _)
    | cons y ys => cases hlength
  | cons x xs ih =>
    cases ys with
    | nil => cases hlength
    | cons y ys =>
      obtain ⟨hx, hxrest⟩ := List.forall_mem_cons.1 hxs
      obtain ⟨hy, hyrest⟩ := List.forall_mem_cons.1 hys
      have htails : xs.length = ys.length := Nat.succ.inj hlength
      rw [digitsValue_cons, digitsValue_cons y, digitsValue_singleton, digitsValue_singleton,
        htails] at h
      have hxdigit := toNat_of_isDigit hx
      have hydigit := toNat_of_isDigit hy
      rcases Nat.lt_trichotomy x.toNat y.toNat with hless | heq | hmore
      · exact .of_head hless
      · obtain rfl : x = y := Char.toNat_inj.1 heq
        exact (ih hxrest hyrest htails (Nat.lt_of_add_lt_add_left h)).cons x
      · -- A greater first digit is worth more than all that the others can be worth.
        have hrest := digitsValue_lt hyrest
        have hfirst : (y.toNat - 48 + 1) * 10 ^ ys.length ≤ (x.toNat - 48) * 10 ^ ys.length := by
          apply Nat.mul_le_mul_right
          omega
        rw [Nat.add_mul, Nat.one_mul] at hfirst
        omega

end Json

/-! ## Numbers of fixed width -/

open Json

/-- The characters of a number that is padded with zeros. -/
theorem toList_padLeft (width n : Nat) : (padLeft width '0' (digitsText n)).toList =
    List.replicate (width - (Nat.toDigits 10 n).length) '0' ++ Nat.toDigits 10 n := by
  simp [padLeft, digitsText]

theorem length_padLeft {width n : Nat} (hwidth : 0 < width) (hn : n < 10 ^ width) :
    (padLeft width '0' (digitsText n)).toList.length = width := by
  have hlength := (Nat.length_toDigits_le_iff (by norm_num) hwidth).2 hn
  rw [toList_padLeft, List.length_append, List.length_replicate]
  omega

theorem allDigits_padLeft (width n : Nat) : AllDigits (padLeft width '0' (digitsText n)).toList := by
  rw [toList_padLeft]
  exact (allDigits_zeros _).append (allDigits_toDigits n)

theorem digitsValue_padLeft (width n : Nat) :
    digitsValue (padLeft width '0' (digitsText n)).toList = n := by
  rw [toList_padLeft, digitsValue_zeros_append, digitsValue_toDigits]

/-- **Of two padded numbers the lesser comes first.** -/
theorem comesFirst_padLeft {width m n : Nat} (hwidth : 0 < width) (hn : n < 10 ^ width)
    (h : m < n) :
    ComesFirst (padLeft width '0' (digitsText m)).toList (padLeft width '0' (digitsText n)).toList := by
  apply comesFirst_of_digitsValue_lt (allDigits_padLeft width m) (allDigits_padLeft width n)
  · rw [length_padLeft hwidth (h.trans hn), length_padLeft hwidth hn]
  · rwa [digitsValue_padLeft, digitsValue_padLeft]

/-! ## The parts of a date -/

namespace Calendar

theorem daysBeforeYear_eq (year : Int) : daysBeforeYear year =
    365 * (year - 1) + (year - 1) / 4 - (year - 1) / 100 + (year - 1) / 400 := by
  simp only [daysBeforeYear, Int.fdiv_eq_ediv_of_nonneg _ (by norm_num : (0 : Int) ≤ 4),
    Int.fdiv_eq_ediv_of_nonneg _ (by norm_num : (0 : Int) ≤ 100),
    Int.fdiv_eq_ediv_of_nonneg _ (by norm_num : (0 : Int) ≤ 400)]

theorem daysBeforeYear_mono {a b : Int} (h : a ≤ b) : daysBeforeYear a ≤ daysBeforeYear b := by
  rw [daysBeforeYear_eq, daysBeforeYear_eq]
  omega

theorem isLeap_iff (year : Int) :
    isLeap year = true ↔ year % 4 = 0 ∧ (year % 100 ≠ 0 ∨ year % 400 = 0) := by
  simp [isLeap, Int.fmod_eq_emod_of_nonneg]

/-- The months of a year. -/
def months : List Nat := [1, 2, 3, 4, 5, 6, 7, 8, 9, 10, 11, 12]

/-- A year has as many days as its months. -/
theorem sum_daysInMonth (year : Int) : ((months.map (daysInMonth year)).sum : Int) =
    daysBeforeYear (year + 1) - daysBeforeYear year := by
  rw [daysBeforeYear_eq, daysBeforeYear_eq]
  have hleap := isLeap_iff year
  cases hyear : isLeap year with
  | true =>
    rw [hyear] at hleap
    have := hleap.1 rfl
    simp [months, daysInMonth, hyear]
    omega
  | false =>
    rw [hyear] at hleap
    have := mt hleap.2 (by decide)
    simp [months, daysInMonth, hyear]
    omega

/-- A day lies in its year. -/
theorem yearOfDay_spec (n : Int) :
    daysBeforeYear (yearOfDay n) ≤ n ∧ n < daysBeforeYear (yearOfDay n + 1) := by
  simp only [yearOfDay, Int.fdiv_eq_ediv_of_nonneg _ (by norm_num : (0 : Int) ≤ 146097),
    Int.fmod_eq_emod_of_nonneg _ (by norm_num : (0 : Int) ≤ 146097), daysBeforeYear_eq]
  -- The estimate may be off by one year, and each way is corrected.
  split_ifs <;> omega

theorem yearOfDay_mono {m n : Int} (h : m ≤ n) : yearOfDay m ≤ yearOfDay n := by
  by_contra hlt
  have hyears := daysBeforeYear_mono (show yearOfDay n + 1 ≤ yearOfDay m by omega)
  have hm := (yearOfDay_spec m).1
  have hn := (yearOfDay_spec n).2
  omega

/-- The days of the calendar have years of at most four digits. -/
theorem yearOfDay_range {n : Int} (h0 : 0 ≤ n) (h : n < 3652059) :
    1 ≤ yearOfDay n ∧ yearOfDay n ≤ 9999 := by
  have hspec := yearOfDay_spec n
  constructor
  · by_contra hlt
    have hyears := daysBeforeYear_mono (show yearOfDay n + 1 ≤ 1 by omega)
    have hfirst : daysBeforeYear 1 = 0 := by decide
    omega
  · by_contra hlt
    have hyears := daysBeforeYear_mono (show 10000 ≤ yearOfDay n by omega)
    have hlast : daysBeforeYear 10000 = 3652059 := by decide
    omega

/-- The month of a day is one of those that are left, or the last, and its day lies in the month. -/
theorem monthAndDay_range (year : Int) (months : List Nat) : ∀ {day : Nat},
    day < (months.map (daysInMonth year)).sum →
      (monthAndDay year months day).1 ∈ months ∧ (monthAndDay year months day).2 ≤ 31 := by
  induction months with
  | nil => exact fun h => absurd h (Nat.not_lt_zero _)
  | cons month rest ih =>
    intro day h
    rw [monthAndDay]
    split
    · rename_i hday
      have hlength : daysInMonth year month ≤ 31 := by
        unfold daysInMonth
        split_ifs <;> omega
      exact ⟨List.mem_cons_self, by simp only; omega⟩
    · rw [List.map_cons, List.sum_cons] at h
      have hrest : day - daysInMonth year month < (rest.map (daysInMonth year)).sum := by omega
      obtain ⟨hmonth, hday⟩ := ih hrest
      exact ⟨List.mem_cons_of_mem _ hmonth, hday⟩

/-- Of two days of a year the later one has a later month, or a later day of the same month. -/
theorem monthAndDay_lt (year : Int) {months : List Nat} (hmonths : months.Pairwise (· < ·)) :
    ∀ {m n : Nat}, m < n → n < (months.map (daysInMonth year)).sum →
      (monthAndDay year months m).1 < (monthAndDay year months n).1 ∨
        (monthAndDay year months m).1 = (monthAndDay year months n).1 ∧
          (monthAndDay year months m).2 < (monthAndDay year months n).2 := by
  induction months with
  | nil => exact fun _ h => absurd h (Nat.not_lt_zero _)
  | cons month rest ih =>
    intro m n hmn hn
    obtain ⟨hfirst, hrest⟩ := List.pairwise_cons.1 hmonths
    rw [List.map_cons, List.sum_cons] at hn
    rw [monthAndDay, monthAndDay]
    by_cases hm : m < daysInMonth year month
    · rw [if_pos hm]
      by_cases hn' : n < daysInMonth year month
      · rw [if_pos hn']
        exact .inr ⟨rfl, by simp only; omega⟩
      · rw [if_neg hn']
        have hlast : n - daysInMonth year month < (rest.map (daysInMonth year)).sum := by omega
        exact .inl (hfirst _ (monthAndDay_range year rest hlast).1)
    · rw [if_neg hm, if_neg (by omega)]
      exact ih hrest (by omega) (by omega)

/-! ## The texts of dates and times -/

/-- The day of a year, counted from zero. -/
def dayOfYear (n : Int) : Nat := (n - daysBeforeYear (yearOfDay n)).toNat

theorem dayOfYear_lt (n : Int) :
    dayOfYear n < (months.map (daysInMonth (yearOfDay n))).sum := by
  have hsum := sum_daysInMonth (yearOfDay n)
  have hspec := yearOfDay_spec n
  unfold dayOfYear
  omega

theorem comesFirst_twoDigits {m n : Nat} (h : m < n) (hn : n < 100) :
    ComesFirst (Moment.twoDigits m).toList (Moment.twoDigits n).toList :=
  comesFirst_padLeft (by norm_num) hn h

/-- Of two days of a year the earlier one comes first, behind what stands before both. -/
theorem comesFirst_monthAndDay (year : Int) {m n : Nat} (h : m < n)
    (hn : n < (months.map (daysInMonth year)).sum) (before : List Char) :
    ComesFirst
      (before ++ (Moment.twoDigits (monthAndDay year months m).1).toList ++ "-".toList ++
        (Moment.twoDigits (monthAndDay year months m).2).toList)
      (before ++ (Moment.twoDigits (monthAndDay year months n).1).toList ++ "-".toList ++
        (Moment.twoDigits (monthAndDay year months n).2).toList) := by
  have hascending : months.Pairwise (· < ·) := by decide
  obtain ⟨hmonth, hday⟩ := monthAndDay_range year months hn
  have hmonth : (monthAndDay year months n).1 ≤ 12 :=
    (show ∀ month ∈ months, month ≤ 12 by decide) _ hmonth
  rcases monthAndDay_lt year hascending h hn with hlt | ⟨heq, hlt⟩
  · have hdigits := comesFirst_twoDigits hlt (by omega)
    exact ((hdigits.append_left _).append_right _ _).append_right _ _
  · have hdigits := comesFirst_twoDigits hlt (by omega)
    rw [heq]
    exact hdigits.append_left _

theorem intText_of_pos {y : Int} (h : 0 ≤ y) : intText y = digitsText y.toNat := by
  rw [intText, if_neg (not_lt.2 h)]
  congr 1
  omega

/-- **Of two dates the earlier one comes first.** -/
theorem comesFirst_dateText {a b : Moment} (ha : 0 ≤ Int.fdiv a.clock dayLength)
    (hb : Int.fdiv b.clock dayLength < 3652059)
    (h : Int.fdiv a.clock dayLength < Int.fdiv b.clock dayLength) :
    ComesFirst (a.dateText 4).toList (b.dateText 4).toList := by
  unfold Moment.dateText Moment.date
  generalize Int.fdiv a.clock dayLength = m at *
  generalize Int.fdiv b.clock dayLength = n at *
  obtain ⟨hm, -⟩ := yearOfDay_range ha (h.trans hb)
  obtain ⟨hn, hn'⟩ := yearOfDay_range (ha.trans h.le) hb
  simp only [Date.ofDayNumber, String.toList_append]
  rw [intText_of_pos (by omega), intText_of_pos (by omega)]
  rcases (yearOfDay_mono h.le).lt_or_eq with hyear | hyear
  · have hdigits : ComesFirst (padLeft 4 '0' (digitsText (yearOfDay m).toNat)).toList
        (padLeft 4 '0' (digitsText (yearOfDay n).toNat)).toList :=
      comesFirst_padLeft (by norm_num) (by omega) (by omega)
    exact (((hdigits.append_right _ _).append_right _ _).append_right _ _).append_right _ _
  -- Within one year the month and the day decide.
  · have hday : dayOfYear m < dayOfYear n := by
      have hspec := yearOfDay_spec m
      unfold dayOfYear
      rw [hyear] at hspec ⊢
      omega
    have hdays := comesFirst_monthAndDay (yearOfDay n) hday (dayOfYear_lt n)
    simp only [dayOfYear, hyear] at hdays ⊢
    exact hdays _

/-- **Of two times to the second the earlier one comes first.** -/
theorem comesFirst_clockText {a b : Moment} (hb : b.timeOfDay < 86400000000)
    (h : a.timeOfDay / 1000000 < b.timeOfDay / 1000000) :
    ComesFirst a.clockText.toList b.clockText.toList := by
  unfold Moment.clockText Moment.hour Moment.minute Moment.seconds
  generalize a.timeOfDay = m at *
  generalize b.timeOfDay = n at *
  simp only [String.toList_append]
  rcases Nat.lt_trichotomy (m / 3600000000) (n / 3600000000) with hhour | hhour | hhour
  · have hdigits := comesFirst_twoDigits hhour (by omega)
    exact (((hdigits.append_right _ _).append_right _ _).append_right _ _).append_right _ _
  · rcases Nat.lt_trichotomy (m / 60000000 % 60) (n / 60000000 % 60) with hmin | hmin | hmin
    · have hdigits := comesFirst_twoDigits hmin (by omega)
      rw [hhour]
      exact ((hdigits.append_left _).append_right _ _).append_right _ _
    · have hdigits := comesFirst_twoDigits (m := m / 1000000 % 60) (n := n / 1000000 % 60)
        (by omega) (by omega)
      rw [hhour, hmin]
      exact hdigits.append_left _
    · omega
  · omega

theorem clockText_eq {a b : Moment} (h : a.timeOfDay / 1000000 = b.timeOfDay / 1000000) :
    a.clockText = b.clockText := by
  have hhour : a.hour = b.hour := by
    unfold Moment.hour
    omega
  have hminute : a.minute = b.minute := by
    unfold Moment.minute
    omega
  have hseconds : a.seconds = b.seconds := by
    unfold Moment.seconds
    omega
  rw [Moment.clockText, Moment.clockText, hhour, hminute, hseconds]

/-- Of two parts of a second the lesser comes first, before the mark of universal time. A part that
is left out comes before all others, since a plus sign comes before a point. -/
theorem microText_lt {m n : Nat} (h : m < n) (hn : n < 1000000) :
    (Moment.microText m).toList ++ (Moment.offsetText 0).toList <
      (Moment.microText n).toList ++ (Moment.offsetText 0).toList := by
  have hoffset : (Moment.offsetText 0).toList = '+' :: "00:00".toList := by decide
  unfold Moment.microText
  rw [if_neg (show n ≠ 0 by omega), hoffset]
  by_cases hm : m = 0
  · rw [if_pos hm, String.toList_append]
    exact List.cons_lt_cons_iff.2 (.inl (by decide))
  · rw [if_neg hm, String.toList_append, String.toList_append]
    exact (((comesFirst_padLeft (by norm_num) hn h).append_left _).append_right _ _).lt

/-! ## Moments -/

/-- A moment in universal time, from the year 1 to the year 9999. -/
structure Moment.IsUniversal (m : Moment) : Prop where
  offset : m.offset = some 0
  from_start : 0 ≤ m.clock
  before_end : m.clock < endOfTime

namespace Moment

variable {a b : Moment}

theorem fdiv_dayLength (clock : Int) : Int.fdiv clock dayLength = clock / 86400000000 :=
  Int.fdiv_eq_ediv_of_nonneg _ (by decide)

theorem timeOfDay_eq (m : Moment) : m.timeOfDay = (m.clock % 86400000000).toNat :=
  congrArg Int.toNat (Int.fmod_eq_emod_of_nonneg _ (by decide))

theorem timeOfDay_lt (m : Moment) : m.timeOfDay < 86400000000 := by
  rw [timeOfDay_eq]
  omega

/-- The days of moments in universal time are those of the calendar. -/
theorem IsUniversal.day_range (h : a.IsUniversal) :
    0 ≤ Int.fdiv a.clock dayLength ∧ Int.fdiv a.clock dayLength < 3652059 := by
  have hend : endOfTime = 3652059 * 86400000000 := by decide
  have hstart := h.from_start
  have hstop := h.before_end
  rw [fdiv_dayLength]
  omega

/-- An earlier moment has an earlier day, or an earlier time on the same day. -/
theorem day_or_time_lt (h : a.clock < b.clock) :
    Int.fdiv a.clock dayLength < Int.fdiv b.clock dayLength ∨
      Int.fdiv a.clock dayLength = Int.fdiv b.clock dayLength ∧ a.timeOfDay < b.timeOfDay := by
  rw [fdiv_dayLength, fdiv_dayLength, timeOfDay_eq, timeOfDay_eq]
  omega

theorem IsUniversal.isoText (h : a.IsUniversal) : a.isoText.toList =
    (a.dateText 4).toList ++ "T".toList ++ a.clockText.toList ++
      ((microText a.microsecond).toList ++ (offsetText 0).toList) := by
  simp only [Moment.isoText, h.offset, String.toList_append, List.append_assoc]

/-- **Of two moments in universal time the earlier one has the lesser text.** -/
theorem isoText_lt (ha : a.IsUniversal) (hb : b.IsUniversal) (h : a.clock < b.clock) :
    a.isoText < b.isoText := by
  rw [String.lt_iff, ha.isoText, hb.isoText]
  rcases day_or_time_lt h with hday | ⟨hday, htime⟩
  · have hdates := comesFirst_dateText ha.day_range.1 hb.day_range.2 hday
    exact (((hdates.append_right _ _).append_right _ _).append_right _ _).lt
  · have hdates : a.dateText 4 = b.dateText 4 := by rw [dateText, dateText, date, date, hday]
    rw [hdates]
    rcases (Nat.div_le_div_right (c := 1000000) htime.le).lt_or_eq with hsecond | hsecond
    · have htimes := comesFirst_clockText b.timeOfDay_lt hsecond
      exact ((htimes.append_left _).append_right _ _).lt
    -- Within one second the places of the second decide.
    · rw [clockText_eq hsecond]
      apply List.append_left_lt
      apply microText_lt
      · unfold microsecond
        omega
      · exact Nat.mod_lt _ (by norm_num)

/-- **The texts of moments in universal time are in the order of the moments.** -/
theorem not_isoText_lt (ha : a.IsUniversal) (hb : b.IsUniversal) (h : a.clock ≤ b.clock) :
    ¬ b.isoText < a.isoText := by
  rcases h.lt_or_eq with hlt | heq
  · exact String.lt_asymm (isoText_lt ha hb hlt)
  · have hsame : a = b := by
      obtain ⟨clock, offset⟩ := a
      obtain ⟨clock', offset'⟩ := b
      obtain rfl : clock = clock' := heq
      obtain rfl : offset = offset' := ha.offset.trans hb.offset.symm
      rfl
    rw [hsame]
    exact String.lt_irrefl _

end Moment

end Calendar

end Workgraph
