import Workgraph.Proofs.Calendar.Reading
import Workgraph.Proofs.Number.HalfUp
/-!
# Timestamps

A timestamp tells a moment in universal time to the millisecond (`Moment.denotes_stamp`), and no text
tells two times (`Denotes.unique`). The year is not padded. So a timestamp has the canonical form of 24
characters exactly from the year 1000 on (`Moment.isCanonical_stamp_iff`). From then on timestamps are
read back (`Moment.readMoment_stamp`) and are in the order of the moments; before, no reader takes them
(`Moment.readMoment_stamp_early`), and the later of two is the greater text only as far as the first
digits of the years agree with that (`Moment.stamp_lt_iff`).
-/

namespace Workgraph

/-- What is behind the same characters can be compared alone. -/
theorem ComesFirst.of_append_left {ps xs ys : List Char} (h : ComesFirst (ps ++ xs) (ps ++ ys)) :
    ComesFirst xs ys := by
  intro us vs
  have hlt := h us vs
  rw [List.append_assoc, List.append_assoc] at hlt
  generalize xs ++ us = cs at hlt ⊢
  generalize ys ++ vs = ds at hlt ⊢
  clear h
  induction ps with
  | nil => exact hlt
  | cons p ps ih =>
    rcases List.cons_lt_cons_iff.1 hlt with hhead | ⟨-, htail⟩
    · exact absurd hhead (Char.lt_irrefl p)
    · exact ih htail

namespace Calendar

open Json

/-! ## What a text tells -/

/-- The fields of a timestamp. -/
structure Stamp where
  date : Date
  hour : Nat
  minute : Nat
  seconds : Nat
  millis : Nat

namespace Stamp

/-- Each field lies in its range. -/
structure IsValid (p : Stamp) : Prop where
  year_pos : 1 ≤ p.date.year
  year_le : p.date.year ≤ 9999
  date : p.date.IsValid
  hour : p.hour < 24
  minute : p.minute < 60
  seconds : p.seconds < 60
  millis : p.millis < 1000

/-- The milliseconds from the start of year 1. -/
def time (p : Stamp) : Int :=
  p.date.dayNumber * 86400000 +
    (((p.hour * 60 + p.minute) * 60 + p.seconds) * 1000 + p.millis : Nat)

/-- Characters that tell the fields one after another, the year in so many digits. -/
inductive Tells (p : Stamp) (width : Nat) : List Char → Prop where
  | intro {ys ms ds hs is ss zs : List Char} (year : Spells ys width p.date.year.toNat)
    (month : Spells ms 2 p.date.month) (day : Spells ds 2 p.date.day) (hour : Spells hs 2 p.hour)
    (minute : Spells is 2 p.minute) (seconds : Spells ss 2 p.seconds)
    (millis : Spells zs 3 p.millis) :
    Tells p width (ys ++ '-' :: (ms ++ '-' :: (ds ++ 'T' :: (hs ++ ':' :: (is ++ ':' :: (ss ++
      '.' :: (zs ++ ['Z'])))))))

end Stamp

/-- A text tells the time so many milliseconds after the start of year 1. -/
def Denotes (text : String) (time : Int) : Prop :=
  ∃ (p : Stamp) (width : Nat), p.IsValid ∧ p.Tells width text.toList ∧ p.time = time

/-- The first digits of a text end where something else begins. -/
theorem digits_append_inj {xs ys us vs : List Char} (hxs : AllDigits xs) (hys : AllDigits ys)
    (hus : NoDigitFirst us) (hvs : NoDigitFirst vs) (h : xs ++ us = ys ++ vs) :
    xs = ys ∧ us = vs := by
  have hx := spanDigits_append hxs hus
  have hy := spanDigits_append hys hvs
  rw [h, hy] at hx
  exact ⟨(congrArg Prod.fst hx).symm, (congrArg Prod.snd hx).symm⟩

/-- Digits of one width spell one number. -/
theorem Spells.append_inj {xs ys us vs : List Char} {width m n : Nat} (hx : Spells xs width m)
    (hy : Spells ys width n) (h : xs ++ us = ys ++ vs) : m = n ∧ us = vs := by
  obtain ⟨rfl, rfl⟩ := List.append_inj h (hx.length.trans hy.length.symm)
  exact ⟨hx.value.symm.trans hy.value, rfl⟩

theorem Stamp.Tells.unique {p q : Stamp} {width width' : Nat} {cs : List Char}
    (hp : 1 ≤ p.date.year) (hq : 1 ≤ q.date.year) (h : p.Tells width cs) (h' : q.Tells width' cs) :
    p = q := by
  have hhyphen (us : List Char) : NoDigitFirst ('-' :: us) := by
    intro c hc
    cases hc
    rfl
  obtain ⟨⟨year, month, day⟩, hour, minute, seconds, millis⟩ := p
  obtain ⟨⟨year', month', day'⟩, hour', minute', seconds', millis'⟩ := q
  obtain ⟨y, mo, d, h, mi, s, z⟩ := h
  generalize hcs : (_ ++ '-' :: _ : List Char) = cs at h'
  obtain ⟨y', mo', d', h', mi', s', z'⟩ := h'
  obtain ⟨rfl, hmonth⟩ := digits_append_inj y.allDigits y'.allDigits (hhyphen _) (hhyphen _) hcs
  obtain ⟨rfl, hday⟩ := mo.append_inj mo' (List.cons.inj hmonth).2
  obtain ⟨rfl, hhour⟩ := d.append_inj d' (List.cons.inj hday).2
  obtain ⟨rfl, hminute⟩ := h.append_inj h' (List.cons.inj hhour).2
  obtain ⟨rfl, hseconds⟩ := mi.append_inj mi' (List.cons.inj hminute).2
  obtain ⟨rfl, hmillis⟩ := s.append_inj s' (List.cons.inj hseconds).2
  obtain ⟨rfl, -⟩ := z.append_inj z' (List.cons.inj hmillis).2
  have hyear : year.toNat = year'.toNat := y.value.symm.trans y'.value
  simp only at hp hq
  obtain rfl : year = year' := by omega
  rfl

/-- **A text tells one time.** -/
theorem Denotes.unique {text : String} {t t' : Int} (h : Denotes text t) (h' : Denotes text t') :
    t = t' := by
  obtain ⟨p, width, hp, htells, rfl⟩ := h
  obtain ⟨q, width', hq, htells', rfl⟩ := h'
  rw [htells.unique hp.year_pos hq.year_pos htells']

/-- The three digits before the end of a text tell the millisecond. -/
theorem Denotes.millisecond {text : String} {time : Int} (h : Denotes text time) :
    ∃ front digits, text.toList = front ++ '.' :: (digits ++ ['Z']) ∧
      Spells digits 3 (time % 1000).toNat := by
  obtain ⟨p, width, hp, htells, rfl⟩ := h
  have hmillis := hp.millis
  have hlast : (p.time % 1000).toNat = p.millis := by
    rw [Stamp.time]
    omega
  rw [hlast]
  generalize text.toList = cs at htells ⊢
  obtain ⟨y, mo, d, h, mi, s, z⟩ := htells
  rename_i ys ms ds hs is ss zs
  exact ⟨ys ++ '-' :: (ms ++ '-' :: (ds ++ 'T' :: (hs ++ ':' :: (is ++ ':' :: ss)))), zs, by simp, z⟩

/-! ## The canonical form -/

/-- A text with a zero in the place of each digit. -/
def form (cs : List Char) : List Char := cs.map fun c => if c.isDigit then '0' else c

/-- Four digits of the year, two of the month and so on, with the marks between them. -/
def IsCanonical (text : String) : Prop := form text.toList = "0000-00-00T00:00:00.000Z".toList

instance (text : String) : Decidable (IsCanonical text) :=
  inferInstanceAs (Decidable (_ = _))

theorem IsCanonical.length {text : String} (h : IsCanonical text) : text.length = 24 := by
  have hlength := congrArg List.length h
  rwa [form, List.length_map, String.length_toList] at hlength

@[simp] theorem form_append (us vs : List Char) : form (us ++ vs) = form us ++ form vs :=
  List.map_append

theorem Spells.form {ds : List Char} {width n : Nat} (h : Spells ds width n) :
    form ds = List.replicate width '0' := by
  rw [Calendar.form, List.eq_replicate_iff, List.length_map, h.length]
  refine ⟨rfl, fun c hc => ?_⟩
  obtain ⟨d, hd, rfl⟩ := List.mem_map.1 hc
  rw [if_pos (h.allDigits d hd)]

theorem Stamp.Tells.form {p : Stamp} {width : Nat} {cs : List Char} (h : p.Tells width cs) :
    form cs = List.replicate width '0' ++ "-00-00T00:00:00.000Z".toList := by
  obtain ⟨y, mo, d, h, mi, s, z⟩ := h
  have hmark (c : Char) (us : List Char) (hc : c.isDigit = false) :
      Calendar.form (c :: us) = c :: Calendar.form us := by simp [Calendar.form, hc]
  simp only [form_append, hmark _ _ (by decide : '-'.isDigit = false),
    hmark _ _ (by decide : 'T'.isDigit = false), hmark _ _ (by decide : ':'.isDigit = false),
    hmark _ _ (by decide : '.'.isDigit = false), y.form, mo.form, d.form, h.form, mi.form, s.form,
    z.form]
  rfl

/-- A text that tells a time is canonical exactly if the year has four digits. -/
theorem Stamp.Tells.isCanonical_iff {p : Stamp} {width : Nat} {text : String}
    (h : p.Tells width text.toList) : IsCanonical text ↔ width = 4 := by
  rw [IsCanonical, h.form]
  constructor
  · intro heq
    have hlength := congrArg List.length heq
    simp only [List.length_append, List.length_replicate] at hlength
    exact Nat.add_right_cancel (m := 20) hlength
  · rintro rfl
    rfl

/-! ## Digits of different number -/

/-- Digits of one number that are worth the same are the same. -/
theorem eq_of_digitsValue_eq {xs ys : List Char} (hxs : AllDigits xs) (hys : AllDigits ys)
    (hlength : xs.length = ys.length) (h : digitsValue xs = digitsValue ys) : xs = ys := by
  induction xs generalizing ys with
  | nil => exact (List.length_eq_zero_iff.1 hlength.symm).symm
  | cons x xs ih =>
    cases ys with
    | nil => cases hlength
    | cons y ys =>
      obtain ⟨hx, hxrest⟩ := List.forall_mem_cons.1 hxs
      obtain ⟨hy, hyrest⟩ := List.forall_mem_cons.1 hys
      have htails : xs.length = ys.length := Nat.succ.inj hlength
      have hxlt := digitsValue_lt hxrest
      have hylt := digitsValue_lt hyrest
      rw [digitsValue_cons, digitsValue_cons y, digitsValue_singleton, digitsValue_singleton,
        htails] at h
      rw [htails] at hxlt
      have hhead : x.toNat - 48 = y.toNat - 48 := by
        have hdiv := congrArg (· / 10 ^ ys.length) h
        simpa [Nat.mul_add_div, Nat.mul_comm, Nat.div_eq_of_lt hxlt, Nat.div_eq_of_lt hylt]
          using hdiv
      rw [hhead] at h
      have hxdigit := toNat_of_isDigit hx
      have hydigit := toNat_of_isDigit hy
      rw [Char.toNat_inj.1 (show x.toNat = y.toNat by omega),
        ih hxrest hyrest htails (Nat.add_left_cancel h)]

/-- Fewer digits than others, with a hyphen behind, are the lesser text exactly if they are not worth
more than as many first digits of the others. -/
theorem comesFirst_hyphen {xs ys : List Char} (hxs : AllDigits xs) (hys : AllDigits ys)
    (hlength : xs.length < ys.length) :
    if digitsValue xs ≤ digitsValue ys / 10 ^ (ys.length - xs.length) then
      ComesFirst (xs ++ ['-']) ys
    else ComesFirst ys (xs ++ ['-']) := by
  obtain ⟨first, rest, rfl, hfirst⟩ : ∃ first rest, ys = first ++ rest ∧ first.length = xs.length :=
    ⟨ys.take xs.length, ys.drop xs.length, (List.take_append_drop _ _).symm,
      List.length_take_of_le hlength.le⟩
  have hfirstDigits : AllDigits first := fun c hc => hys c (List.mem_append_left _ hc)
  have hrestDigits : AllDigits rest := fun c hc => hys c (List.mem_append_right _ hc)
  have hwidth : (first ++ rest).length - xs.length = rest.length := by
    rw [List.length_append]
    omega
  have hvalue : digitsValue (first ++ rest) / 10 ^ rest.length = digitsValue first := by
    rw [digitsValue_append, Nat.mul_comm, Nat.mul_add_div (Nat.pow_pos (by norm_num)),
      Nat.div_eq_of_lt (digitsValue_lt hrestDigits), Nat.add_zero]
  rw [hwidth, hvalue]
  split
  · rename_i hle
    rcases hle.lt_or_eq with hlt | heq
    · exact (comesFirst_of_digitsValue_lt hxs hfirstDigits hfirst.symm hlt).append_right _ _
    · rw [eq_of_digitsValue_eq hxs hfirstDigits hfirst.symm heq]
      apply ComesFirst.append_left
      cases rest with
      | nil => simp [hfirst] at hlength
      | cons c rest =>
        -- A hyphen comes before every digit.
        have hdigit := toNat_of_isDigit (hrestDigits c List.mem_cons_self)
        have hhyphen : '-'.toNat = 45 := rfl
        have hlt : '-'.toNat < c.toNat := by omega
        exact .of_head hlt
  · rename_i hlt
    exact (comesFirst_of_digitsValue_lt hfirstDigits hxs hfirst (not_le.1 hlt)).append_right _ _

theorem digitCount_mono {m n : Nat} (h : m ≤ n) : digitCount m ≤ digitCount n :=
  (digitCount_le_iff Nat.length_toDigits_pos).2 (h.trans_lt (lt_pow_digitCount n))

theorem spells_digitsText (n : Nat) :
    Spells (padLeft 1 '0' (digitsText n)).toList (digitCount n) n := by
  refine ⟨allDigits_padLeft 1 n, ?_, digitsValue_padLeft 1 n⟩
  have hpos : 0 < (Nat.toDigits 10 n).length := Nat.length_toDigits_pos
  rw [toList_padLeft, List.length_append, List.length_replicate, digitCount]
  omega

/-! ## The timestamps of moments -/

namespace Moment

variable {m a b : Moment}

/-- The fields of the timestamp of a moment. -/
def fields (m : Moment) : Stamp := ⟨m.date, m.hour, m.minute, m.seconds, m.microsecond / 1000⟩

theorem time_fields (m : Moment) : m.fields.time = m.clock / 1000 := by
  have hclock := m.clock_eq
  have hlt : m.microsecond < 1000000 := Nat.mod_lt _ (by norm_num)
  have hday : dayLength = 86400000000 := by decide
  have hnumber : m.date.dayNumber = Int.fdiv m.clock dayLength := Date.dayNumber_ofDayNumber _
  unfold second at hclock
  rw [Stamp.time, fields, hnumber]
  rw [hday] at hclock ⊢
  push_cast at hclock ⊢
  omega

theorem IsUniversal.isValid_fields (h : m.IsUniversal) : m.fields.IsValid := by
  obtain ⟨hyear, hyear'⟩ := year_range h.from_start h.before_end
  have hlt := m.timeOfDay_lt
  refine ⟨hyear, hyear', Date.isValid_ofDayNumber _, ?_, Nat.mod_lt _ (by norm_num),
    Nat.mod_lt _ (by norm_num), ?_⟩
  · simp only [fields, hour]
    omega
  · simp only [fields, microsecond]
    omega

theorem spells_millis (m : Moment) :
    Spells (padLeft 3 '0' (digitsText (m.microsecond / 1000))).toList 3 (m.microsecond / 1000) := by
  have hlt : m.microsecond < 1000000 := Nat.mod_lt _ (by norm_num)
  exact spells_padLeft (by norm_num) (by norm_num; omega)

/-- A timestamp tells its fields. -/
theorem IsUniversal.tells_stamp (h : m.IsUniversal) :
    m.fields.Tells (digitCount m.date.year.toNat) m.stamp.toList := by
  obtain ⟨ms, ds, hdate, hmonth, hday⟩ := dateText_parts h.from_start h.before_end 1
  obtain ⟨hs, is, ss, hclock, hhour, hminute, hseconds⟩ := m.clockText_parts
  have htells := Stamp.Tells.intro (p := m.fields) (spells_digitsText m.date.year.toNat) hmonth hday
    hhour hminute hseconds m.spells_millis
  have hT : "T".toList = ['T'] := rfl
  have hpoint : ".".toList = ['.'] := rfl
  have hZ : "Z".toList = ['Z'] := rfl
  simp only [stamp, String.toList_append, hdate, hclock, hT, hpoint, hZ, List.append_assoc,
    List.cons_append, List.nil_append]
  exact htells

/-- **A timestamp tells the moment to the millisecond.** -/
theorem IsUniversal.denotes_stamp (h : m.IsUniversal) : Denotes m.stamp (m.clock / 1000) :=
  ⟨m.fields, _, h.isValid_fields, h.tells_stamp, m.time_fields⟩

/-- **A timestamp is canonical exactly from the year 1000 on.** -/
theorem IsUniversal.isCanonical_stamp_iff (h : m.IsUniversal) :
    IsCanonical m.stamp ↔ 1000 ≤ m.date.year := by
  obtain ⟨hyear, hyear'⟩ := year_range h.from_start h.before_end
  have hfour : digitCount m.date.year.toNat ≤ 4 ↔ m.date.year.toNat < 10 ^ 4 :=
    digitCount_le_iff (by norm_num)
  have hthree : digitCount m.date.year.toNat ≤ 3 ↔ m.date.year.toNat < 10 ^ 3 :=
    digitCount_le_iff (by norm_num)
  norm_num at hfour hthree
  rw [h.tells_stamp.isCanonical_iff]
  omega

/-! ### Reading timestamps back -/

/-- Moments of one millisecond have one timestamp. -/
theorem stamp_congr (h : a.clock / 1000 = b.clock / 1000) : a.stamp = b.stamp := by
  have hday : Int.fdiv a.clock dayLength = Int.fdiv b.clock dayLength := by
    rw [fdiv_dayLength, fdiv_dayLength]
    omega
  have htime : a.timeOfDay / 1000 = b.timeOfDay / 1000 := by
    rw [timeOfDay_eq, timeOfDay_eq]
    omega
  have hdate : a.dateText 1 = b.dateText 1 := by rw [dateText, dateText, date, date, hday]
  have hclock : a.clockText = b.clockText := clockText_eq (by omega)
  have hmillis : a.microsecond / 1000 = b.microsecond / 1000 := by
    unfold microsecond
    omega
  rw [stamp, stamp, hdate, hclock, hmillis]

/-- **From the year 1000 on the timestamp of a moment is read as the moment to the millisecond.** -/
theorem IsUniversal.readMoment_stamp (h : m.IsUniversal) (hyear : 1000 ≤ m.date.year) :
    readMoment m.stamp = .ok ⟨m.clock / 1000 * 1000, some 0⟩ := by
  have hdate : m.dateText 4 = m.dateText 1 := by
    have hpad {width : Nat} (hwidth : 0 < width) (hle : width ≤ 4) :
        padLeft width '0' (intText m.date.year) = intText m.date.year := by
      have hcount : ¬ digitCount m.date.year.toNat ≤ 3 := by
        rw [digitCount_le_iff (by norm_num)]
        norm_num
        omega
      rw [digitCount] at hcount
      rw [intText_of_pos (by omega), ← String.toList_inj, toList_padLeft,
        Nat.sub_eq_zero_of_le (by omega)]
      simp [digitsText]
    rw [dateText, dateText, hpad (by norm_num) le_rfl, hpad (by norm_num) (by norm_num)]
  have hmillis := m.spells_millis
  have hplaces := IsFraction.places hmillis.allDigits (by rw [hmillis.length]; norm_num)
    (by rw [hmillis.length]; norm_num)
  rw [hmillis.value, hmillis.length] at hplaces
  have hT : "T".toList = ['T'] := rfl
  have hpoint : ".".toList = ['.'] := rfl
  have hZ : "Z".toList = ['Z'] := rfl
  have hchars : m.stamp.toList = (m.dateText 4).toList ++ 'T' :: (m.clockText.toList ++
      ('.' :: (padLeft 3 '0' (digitsText (m.microsecond / 1000))).toList ++ ['Z'])) := by
    simp only [stamp, String.toList_append, hdate, hT, hpoint, hZ, List.append_assoc,
      List.cons_append, List.nil_append]
  have hread := readMoment_parts h.from_start h.before_end hplaces .universal hchars
  have hmicros : m.microsecond = (m.clock % 86400000000).toNat % 1000000 := by
    rw [microsecond, timeOfDay_eq]
  have hclock : m.clock - m.microsecond + (m.microsecond / 1000 * 10 ^ (6 - 3) : Nat) =
      m.clock / 1000 * 1000 := by
    norm_num
    omega
  rw [hread, hclock]

/-- **Before the year 1000 no reader takes a timestamp.** -/
theorem IsUniversal.readMoment_stamp_early (h : m.IsUniversal) (hyear : m.date.year < 1000) :
    readMoment m.stamp = .error (.malformed m.stamp) := by
  obtain ⟨ms, ds, hdate, -, -⟩ := dateText_parts h.from_start h.before_end 1
  have hspells := spells_digitsText m.date.year.toNat
  have hcount : digitCount m.date.year.toNat ≤ 3 := by
    rw [digitCount_le_iff (by norm_num)]
    norm_num
    omega
  -- A hyphen stands among the first four characters, where a reader wants the digits of the year.
  have hnumber : takeNumber 4 m.stamp.toList = none := by
    simp only [stamp, String.toList_append, hdate, List.append_assoc, List.cons_append, takeNumber]
    generalize (padLeft 1 '0' (digitsText m.date.year.toNat)).toList = ys at hspells
    have hmem : '-' ∈ (ys ++ '-' :: (ms ++ '-' :: (ds ++ ("T".toList ++ (m.clockText.toList ++
        (".".toList ++ ((padLeft 3 '0' (digitsText (m.microsecond / 1000))).toList ++
          "Z".toList))))))).take 4 := by
      rw [List.take_append, List.mem_append]
      have hlength := hspells.length
      obtain ⟨k, hk⟩ : ∃ k, 4 - ys.length = k + 1 := ⟨3 - ys.length, by omega⟩
      rw [hk, List.take_succ_cons]
      exact .inr List.mem_cons_self
    rw [if_neg]
    intro hdigits
    have hall := (Bool.and_eq_true _ _ ▸ hdigits).2
    exact absurd (List.all_eq_true.1 hall _ hmem) (by decide)
  have hdate (n : Nat) : readDate? n m.stamp.toList = none := by
    rw [readDate?, hnumber]
    rfl
  simp only [readMoment, hdate, Option.bind_eq_bind, Option.bind_none]

/-! ### The order of timestamps -/

/-- Of two dates in years of as many digits the earlier one comes first. -/
theorem comesFirst_dateText_one (ha : a.IsUniversal) (hb : b.IsUniversal)
    (hcount : digitCount a.date.year.toNat = digitCount b.date.year.toNat)
    (h : Int.fdiv a.clock dayLength < Int.fdiv b.clock dayLength) :
    ComesFirst (a.dateText 1).toList (b.dateText 1).toList := by
  have hpadded {m : Moment} (hm : m.IsUniversal) : (m.dateText 4).toList =
      List.replicate (4 - digitCount m.date.year.toNat) '0' ++ (m.dateText 1).toList := by
    obtain ⟨hyear, -⟩ := year_range hm.from_start hm.before_end
    have hpos : 0 < (Nat.toDigits 10 m.date.year.toNat).length := Nat.length_toDigits_pos
    simp only [dateText, String.toList_append, intText_of_pos (show 0 ≤ m.date.year by omega),
      toList_padLeft, Nat.sub_eq_zero_of_le (Nat.succ_le_of_lt hpos),
      List.replicate_zero, List.nil_append, List.append_assoc, digitCount]
  have hdates := comesFirst_dateText ha.day_range.1 hb.day_range.2 h
  rw [hpadded ha, hpadded hb, hcount] at hdates
  exact hdates.of_append_left

/-- A timestamp begins with its year and a hyphen. -/
theorem IsUniversal.stamp_year (h : m.IsUniversal) : ∃ ys rest, m.stamp.toList = ys ++ '-' :: rest ∧
    Spells ys (digitCount m.date.year.toNat) m.date.year.toNat := by
  have htells := h.tells_stamp
  generalize m.stamp.toList = cs at htells
  obtain ⟨hyear, -⟩ := htells
  exact ⟨_, _, rfl, hyear⟩

/-- Of two moments in years of as many digits the earlier one has the lesser timestamp. -/
theorem stamp_lt (ha : a.IsUniversal) (hb : b.IsUniversal) (h : a.clock / 1000 < b.clock / 1000)
    (hcount : digitCount a.date.year.toNat = digitCount b.date.year.toNat) : a.stamp < b.stamp := by
  rw [String.lt_iff]
  simp only [stamp, String.toList_append]
  rcases day_or_time_lt (a := a) (b := b) (by omega) with hday | ⟨hday, htime⟩
  · have hdates := comesFirst_dateText_one ha hb hcount hday
    exact (((((hdates.append_right _ _).append_right _ _).append_right _ _).append_right _ _
      ).append_right _ _).lt
  · have hdates : a.dateText 1 = b.dateText 1 := by rw [dateText, dateText, date, date, hday]
    rw [hdates]
    rcases (Nat.div_le_div_right (c := 1000000) htime.le).lt_or_eq with hsecond | hsecond
    · have htimes := comesFirst_clockText b.timeOfDay_lt hsecond
      exact ((((htimes.append_left _).append_right _ _).append_right _ _).append_right _ _).lt
    · have hmillis : a.microsecond / 1000 < b.microsecond / 1000 := by
        rw [fdiv_dayLength, fdiv_dayLength] at hday
        rw [timeOfDay_eq, timeOfDay_eq] at hsecond
        rw [microsecond, microsecond, timeOfDay_eq, timeOfDay_eq]
        omega
      have hlast : b.microsecond < 1000000 := Nat.mod_lt _ (by norm_num)
      have hdigits := comesFirst_padLeft (show 0 < 3 by norm_num) (by norm_num; omega) hmillis
      rw [clockText_eq hsecond]
      exact ((hdigits.append_left _).append_right _ _).lt

/-- **Of two moments the earlier one has the lesser timestamp exactly if its year is not greater than
the number of as many first digits of the later year.** -/
theorem stamp_lt_iff (ha : a.IsUniversal) (hb : b.IsUniversal) (h : a.clock / 1000 < b.clock / 1000) :
    a.stamp < b.stamp ↔ a.date.year.toNat ≤ b.date.year.toNat /
      10 ^ (digitCount b.date.year.toNat - digitCount a.date.year.toNat) := by
  have hyears : a.date.year ≤ b.date.year := yearOfDay_mono (by
    rw [fdiv_dayLength, fdiv_dayLength]
    omega)
  rcases (digitCount_mono (Int.toNat_le_toNat hyears)).lt_or_eq with hcount | hcount
  · obtain ⟨xs, us, hx, hxs⟩ := ha.stamp_year
    obtain ⟨ys, vs, hy, hys⟩ := hb.stamp_year
    have hfirst := comesFirst_hyphen hxs.allDigits hys.allDigits
      (by rwa [hxs.length, hys.length])
    rw [hxs.value, hys.value, hxs.length, hys.length] at hfirst
    have hsplit : xs ++ '-' :: us = (xs ++ ['-']) ++ us := by simp
    rw [String.lt_iff, hx, hy, hsplit]
    split at hfirst
    · rename_i hle
      exact iff_of_true (hfirst us ('-' :: vs)) hle
    · rename_i hgt
      exact iff_of_false (List.lt_asymm (hfirst ('-' :: vs) us)) hgt
  · rw [hcount, Nat.sub_self, pow_zero, Nat.div_one]
    exact iff_of_true (stamp_lt ha hb h hcount) (Int.toNat_le_toNat hyears)

end Moment

end Calendar

end Workgraph
