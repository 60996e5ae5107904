import Workgraph.Calendar.Iso
import Workgraph.Proofs.Calendar.Dates
/-!
# Reading back written moments

A date, a time, places of a second and a distance from universal time are read back part by part, so
a written moment is read back as a whole (`readMoment_parts`). In particular the full text of a moment
reads as that moment (`readMoment_isoText`). Of the distances only those of less than a second are
lost: a reader takes them for none. The moments that some text spells are exactly the others
(`isLegible_iff_exists_text`).
-/

namespace Workgraph.Calendar

open Json

/-! ## Numbers of fixed width -/

/-- Digits of a fixed number that spell a number. -/
structure Spells (ds : List Char) (width n : Nat) : Prop where
  allDigits : AllDigits ds
  length : ds.length = width
  value : digitsValue ds = n

theorem spells_padLeft {width n : Nat} (hwidth : 0 < width) (hn : n < 10 ^ width) :
    Spells (padLeft width '0' (digitsText n)).toList width n :=
  ⟨allDigits_padLeft width n, length_padLeft hwidth hn, digitsValue_padLeft width n⟩

theorem spells_twoDigits {n : Nat} (hn : n < 100) : Spells (Moment.twoDigits n).toList 2 n :=
  spells_padLeft (by norm_num) hn

namespace Spells

variable {ds : List Char} {width n : Nat}

theorem takeNumber (h : Spells ds width n) (rest : List Char) :
    takeNumber width (ds ++ rest) = some (n, rest) := by
  have hall : ds.all Char.isDigit = true := List.all_eq_true.2 h.allDigits
  have hvalue : ds.foldl (fun v c => 10 * v + (c.toNat - 48)) 0 = n := h.value
  obtain rfl := h.length
  simp [Calendar.takeNumber, hall, hvalue]

theorem isDigit_head {c : Char} (h : Spells (c :: ds) width n) : c.isDigit = true :=
  h.allDigits c List.mem_cons_self

theorem exists_two (h : Spells ds 2 n) : ∃ a b, ds = [a, b] := by
  obtain ⟨a, b, rfl⟩ := List.length_eq_two.1 h.length
  exact ⟨a, b, rfl⟩

end Spells

/-! ## Times -/

section
variable {set : Nat → RawTime → RawTime} {setters : List (Nat → RawTime → RawTime)} {time : RawTime}
  {ds : List Char} {v stop : Nat} (h : Spells ds 2 v)
include h

/-- A field before a colon. -/
theorem readFields?_colon (hstop : 3 < stop) (after : List Char) :
    readFields? true (set :: setters) time stop (ds ++ ':' :: after) =
      readFields? true setters (set v time) (stop - 3) after := by
  rw [readFields?, h.takeNumber]
  simp [Nat.not_le.2 hstop]

/-- A field before a point. -/
theorem readFields?_point (hstop : 3 < stop) (after : List Char) :
    readFields? true (set :: setters) time stop (ds ++ '.' :: after) =
      readPlaces? (set v time) (stop - 3) after := by
  rw [readFields?, h.takeNumber]
  simp [Nat.not_le.2 hstop]

/-- The last field. -/
theorem readFields?_last (hstop : stop ≤ 3) (rest : List Char) :
    readFields? true (set :: setters) time stop (ds ++ rest) =
      some { set v time with more := !rest.isEmpty } := by
  rw [readFields?, h.takeNumber]
  simp [hstop]

end

/-- Places of a second behind the last field. -/
theorem readPlaces?_append {time : RawTime} {places rest : List Char} (hplaces : AllDigits places)
    (hlength : places.length ≤ 6) (hrest : NoDigitFirst rest) :
    readPlaces? time places.length (places ++ rest) =
      some { time with
        microsecond := digitsValue places * 10 ^ (6 - places.length), more := !rest.isEmpty } := by
  have hspells : Spells places places.length (digitsValue places) := ⟨hplaces, rfl, rfl⟩
  have hdrop : rest.dropWhile Char.isDigit = rest := by
    cases rest with
    | nil => rfl
    | cons c rest => rw [List.dropWhile_cons, hrest c rfl]; rfl
  rw [readPlaces?, Nat.min_eq_left hlength, hspells.takeNumber]
  simp [hdrop]

/-- The characters of a part of a second, and its microseconds. -/
inductive IsFraction : List Char → Nat → Prop where
  | none : IsFraction [] 0
  | places {ds : List Char} (hds : AllDigits ds) (hpos : 0 < ds.length) (hlength : ds.length ≤ 6) :
    IsFraction ('.' :: ds) (digitsValue ds * 10 ^ (6 - ds.length))

theorem isFraction_microText {n : Nat} (hn : n < 1000000) :
    IsFraction (Moment.microText n).toList n := by
  unfold Moment.microText
  split
  · rename_i hzero
    rw [hzero]
    exact .none
  · have hlength : (padLeft 6 '0' (digitsText n)).toList.length = 6 :=
      length_padLeft (by norm_num) (by norm_num [hn])
    have hplaces := IsFraction.places (allDigits_padLeft 6 n) (by omega) (by omega)
    rw [digitsValue_padLeft, hlength, Nat.sub_self, pow_zero, Nat.mul_one] at hplaces
    rw [String.toList_append]
    exact hplaces

/-- A time to the second with a part of a second, in front of what does not go on with a digit. -/
theorem readTime?_append {hs ms ss places rest : List Char} {hour minute seconds micros : Nat}
    (hhour : Spells hs 2 hour) (hminute : Spells ms 2 minute) (hsecond : Spells ss 2 seconds)
    (hplaces : IsFraction places micros) (hrest : NoDigitFirst rest) :
    readTime? (8 + places.length) (hs ++ ':' :: (ms ++ ':' :: (ss ++ (places ++ rest)))) =
      some ⟨hour, minute, seconds, micros, !rest.isEmpty⟩ := by
  have hcolon : (hs ++ ':' :: (ms ++ ':' :: (ss ++ (places ++ rest))))[2]? = some ':' := by
    obtain ⟨a, b, rfl⟩ := hhour.exists_two
    rfl
  rw [readTime?, hcolon, decide_eq_true rfl, readFields?_colon hhour (by omega),
    readFields?_colon hminute (by omega)]
  cases hplaces with
  | none => rw [List.nil_append, readFields?_last hsecond (by simp)]
  | places hds hpos hlength =>
    rename_i ds
    have hstop : 8 + ('.' :: ds).length - 3 - 3 - 3 = ds.length := by
      rw [List.length_cons]
      omega
    rw [List.cons_append, readFields?_point hsecond (by rw [List.length_cons]; omega), hstop,
      readPlaces?_append hds hlength hrest]

/-- A time to the minute. -/
theorem readTime?_minute {hs ms : List Char} {hour minute : Nat} (hhour : Spells hs 2 hour)
    (hminute : Spells ms 2 minute) :
    readTime? 5 (hs ++ ':' :: ms) = some ⟨hour, minute, 0, 0, false⟩ := by
  have hcolon : (hs ++ ':' :: ms)[2]? = some ':' := by
    obtain ⟨a, b, rfl⟩ := hhour.exists_two
    rfl
  rw [readTime?, hcolon, decide_eq_true rfl, readFields?_colon hhour (by norm_num)]
  rw [← List.append_nil ms, readFields?_last hminute (by norm_num)]
  rfl

/-! ## Distances from universal time -/

/-- A distance that a written moment tells: less than a day, and not less than a second, if it is not
zero. -/
structure IsDistance (o : Int) : Prop where
  lt : o.natAbs < 86400000000
  told : o = 0 ∨ 1000000 ≤ o.natAbs

/-- The parts of the time that stands for a distance. -/
theorem offsetText_parts {o : Int} (h : IsDistance o) : ∃ cs hour minute seconds micros,
    (Moment.offsetText o).toList = (if o < 0 then '-' else '+') :: cs ∧
      readTime? cs.length cs = some ⟨hour, minute, seconds, micros, false⟩ ∧
      (hour * 3600 + minute * 60 + seconds) * 1000000 + micros = o.natAbs ∧ micros < 1000000 := by
  have hlt := h.lt
  have hsign : (if o < 0 then "-" else "+").toList = [if o < 0 then '-' else '+'] := by
    split <;> rfl
  have hhour : Spells (Moment.twoDigits (o.natAbs / 1000000 / 3600)).toList 2
      (o.natAbs / 1000000 / 3600) := spells_twoDigits (by omega)
  have hminute : Spells (Moment.twoDigits (o.natAbs / 1000000 / 60 % 60)).toList 2
      (o.natAbs / 1000000 / 60 % 60) := spells_twoDigits (by omega)
  have hsecond : Spells (Moment.twoDigits (o.natAbs / 1000000 % 60)).toList 2
      (o.natAbs / 1000000 % 60) := spells_twoDigits (by omega)
  have hplaces : IsFraction (Moment.microText (o.natAbs % 1000000)).toList (o.natAbs % 1000000) :=
    isFraction_microText (Nat.mod_lt _ (by norm_num))
  unfold Moment.offsetText
  simp only [String.toList_append, hsign, List.append_assoc, List.singleton_append]
  generalize (Moment.twoDigits (o.natAbs / 1000000 / 3600)).toList = hs at hhour ⊢
  generalize (Moment.twoDigits (o.natAbs / 1000000 / 60 % 60)).toList = ms at hminute ⊢
  have hcolon : ":".toList = [':'] := rfl
  by_cases hwhole : o.natAbs % 60000000 = 0
  · have hread := readTime?_minute hhour hminute
    refine ⟨hs ++ ':' :: ms, o.natAbs / 1000000 / 3600, o.natAbs / 1000000 / 60 % 60, 0, 0,
      by simp [hcolon, hwhole], ?_, by omega, by norm_num⟩
    rw [List.length_append, List.length_cons, hhour.length, hminute.length]
    exact hread
  · rw [if_neg hwhole, String.toList_append, String.toList_append]
    generalize (Moment.twoDigits (o.natAbs / 1000000 % 60)).toList = ss at hsecond ⊢
    generalize (Moment.microText (o.natAbs % 1000000)).toList = places at hplaces ⊢
    have hend : NoDigitFirst [] := fun c hc => absurd hc (Option.not_mem_none c)
    have hread := readTime?_append hhour hminute hsecond hplaces hend
    rw [List.append_nil] at hread
    refine ⟨hs ++ ':' :: (ms ++ ':' :: (ss ++ places)), o.natAbs / 1000000 / 3600,
      o.natAbs / 1000000 / 60 % 60, o.natAbs / 1000000 % 60, o.natAbs % 1000000,
      by simp [hcolon], ?_, by omega, Nat.mod_lt _ (by norm_num)⟩
    have hlength : (hs ++ ':' :: (ms ++ ':' :: (ss ++ places))).length = 8 + places.length := by
      simp only [List.length_append, List.length_cons, hhour.length, hminute.length, hsecond.length]
      omega
    rw [hlength]
    exact hread

/-- The characters behind a time, and the distance that they give. -/
inductive IsZone : List Char → Option Int → Prop where
  | unknown : IsZone [] none
  | universal : IsZone ['Z'] (some 0)
  | distance {o : Int} (h : IsDistance o) : IsZone (Moment.offsetText o).toList (some o)

/-- Whether a character ends the time. -/
def isZoneMark (c : Char) : Bool := c = '+' || c = '-' || c = 'Z'

theorem isZoneMark_of_isDigit {c : Char} (h : c.isDigit = true) : isZoneMark c = false := by
  have hne : ∀ d : Char, d.isDigit = false → c ≠ d := by
    rintro d hd rfl
    rw [h] at hd
    cases hd
  simp [isZoneMark, hne '+' rfl, hne '-' rfl, hne 'Z' rfl]

theorem IsZone.head {zone : List Char} {offset : Option Int} (h : IsZone zone offset) :
    ∀ c ∈ zone.head?, isZoneMark c = true := by
  intro c hc
  cases h with
  | unknown => cases hc
  | universal =>
    cases hc
    rfl
  | distance h =>
    obtain ⟨cs, -, -, -, -, htext, -⟩ := offsetText_parts h
    rw [htext, List.head?_cons, Option.mem_some] at hc
    rw [← hc]
    split <;> rfl

theorem IsZone.noDigitFirst {zone : List Char} {offset : Option Int} (h : IsZone zone offset) :
    NoDigitFirst zone := by
  intro c hc
  rw [Bool.eq_false_iff]
  intro hdigit
  have hmark := h.head c hc
  rw [isZoneMark_of_isDigit hdigit] at hmark
  cases hmark

theorem IsFraction.not_isZoneMark {places : List Char} {micros : Nat} (h : IsFraction places micros) :
    ∀ c ∈ places, isZoneMark c = false := by
  intro c hc
  cases h with
  | none => cases hc
  | places hds hpos hlength =>
    rcases List.mem_cons.1 hc with rfl | hc
    · rfl
    · exact isZoneMark_of_isDigit (hds c hc)

/-- A time with its zone. -/
theorem readZoned?_append {hs ms ss places zone : List Char} {hour minute seconds micros : Nat}
    {offset : Option Int} (hhour : Spells hs 2 hour) (hminute : Spells ms 2 minute)
    (hsecond : Spells ss 2 seconds) (hplaces : IsFraction places micros)
    (hzone : IsZone zone offset) :
    readZoned? (hs ++ ':' :: (ms ++ ':' :: (ss ++ (places ++ zone)))) =
      some (⟨hour, minute, seconds, micros, !zone.isEmpty⟩, offset) := by
  obtain ⟨clock, hclock⟩ : ∃ clock, clock = hs ++ ':' :: (ms ++ ':' :: (ss ++ places)) := ⟨_, rfl⟩
  have htext : hs ++ ':' :: (ms ++ ':' :: (ss ++ (places ++ zone))) = clock ++ zone := by
    simp [hclock]
  have hlength : clock.length = 8 + places.length := by
    simp [hclock, hhour.length, hminute.length, hsecond.length]
    omega
  -- The zone begins at the first mark, so none may stand in the time.
  have hmarks : ∀ c ∈ clock, isZoneMark c = false := by
    have hdigits {ds : List Char} {v : Nat} (h : Spells ds 2 v) : ∀ c ∈ ds, isZoneMark c = false :=
      fun c hc => isZoneMark_of_isDigit (h.allDigits c hc)
    have hcolon : isZoneMark ':' = false := rfl
    simp only [hclock, List.forall_mem_append, List.forall_mem_cons]
    exact ⟨hdigits hhour, hcolon, hdigits hminute, hcolon, hdigits hsecond, hplaces.not_isZoneMark⟩
  have hstop : ((clock ++ zone).takeWhile fun c => !(c = '+' || c = '-' || c = 'Z')).length =
      8 + places.length := by
    have hclock : (clock ++ zone).takeWhile (fun c => !isZoneMark c) = clock := by
      rw [List.takeWhile_append_of_pos fun c hc => by rw [hmarks c hc]; rfl]
      cases zone with
      | nil => simp
      | cons c zone => simp [hzone.head c rfl]
    rw [← hlength]
    exact congrArg List.length hclock
  have htime : readTime? (8 + places.length) (clock ++ zone) =
      some ⟨hour, minute, seconds, micros, !zone.isEmpty⟩ := by
    rw [← htext]
    exact readTime?_append hhour hminute hsecond hplaces hzone.noDigitFirst
  have hdrop : (clock ++ zone).drop (8 + places.length) = zone := by
    rw [← hlength, List.drop_left]
  rw [htext]
  unfold readZoned?
  simp only [hstop, htime, hdrop, Option.bind_eq_bind, Option.bind_some]
  cases hzone with
  | unknown => rfl
  | universal => rfl
  | distance h =>
    rename_i o
    obtain ⟨cs, hour', minute', seconds', micros', hoffset, hread, hvalue, hmicros⟩ :=
      offsetText_parts h
    -- Below a second the distance is taken for zero, which the distances that are told never are.
    have hdistance : (if (hour' * 3600 + minute' * 60 + seconds' : Int) = 0 then (0 : Int)
        else (hour' * 3600 + minute' * 60 + seconds') * second + micros') = o.natAbs := by
      have htold := h.told
      unfold second
      split <;> omega
    obtain ⟨sign, hne, hsign, hsigned⟩ : ∃ sign : Char, sign ≠ 'Z' ∧
        (if o < 0 then '-' else '+') = sign ∧
        (if sign = '-' then -(o.natAbs : Int) else o.natAbs) = o := by
      rcases lt_or_ge o 0 with ho | ho
      · exact ⟨'-', by decide, if_pos ho, by rw [if_pos rfl]; omega⟩
      · exact ⟨'+', by decide, if_neg (not_lt.2 ho), by rw [if_neg (by decide)]; omega⟩
    rw [hoffset, hsign]
    split
    · rename_i heq
      cases heq
    · rename_i heq
      exact absurd (List.cons.inj heq).1 hne
    · rename_i heq
      obtain ⟨rfl, rfl⟩ := List.cons.inj heq
      simp only [hread, Option.bind_some, Bool.false_eq_true, if_false, hdistance, hsigned]

theorem IsZone.isDistance {zone : List Char} {o : Int} (h : IsZone zone (some o)) : IsDistance o := by
  cases h with
  | universal => exact ⟨by decide, .inl rfl⟩
  | distance h => exact h

/-! ## Dates -/

section
variable {ys ms ds : List Char} {year month day : Nat} (hyear : Spells ys 4 year)
  (hmonth : Spells ms 2 month) (hday : Spells ds 2 day)
include hyear hmonth hday

theorem dateLength_append (rest : List Char) :
    dateLength (ys ++ '-' :: (ms ++ '-' :: (ds ++ rest))) = 10 := by
  obtain ⟨a, b, rfl⟩ := hmonth.exists_two
  have hweek : a ≠ 'W' := by
    rintro rfl
    exact absurd hmonth.isDigit_head (by decide)
  have hhyphen : (ys ++ '-' :: ([a, b] ++ '-' :: (ds ++ rest)))[4]? = some '-' := by
    rw [List.getElem?_append_right hyear.length.le, hyear.length]
    rfl
  have hnext : (ys ++ '-' :: ([a, b] ++ '-' :: (ds ++ rest)))[5]? = some a := by
    rw [List.getElem?_append_right (by rw [hyear.length]; norm_num), hyear.length]
    rfl
  have hlength : (ys ++ '-' :: ([a, b] ++ '-' :: (ds ++ rest))).length ≠ 7 := by
    simp only [List.length_append, List.length_cons, hyear.length, hday.length]
    omega
  have hnotWeek : (some a : Option Char) ≠ some 'W' := fun heq => hweek (Option.some.inj heq)
  rw [dateLength, if_neg hlength, hhyphen, hnext, if_pos rfl, if_neg hnotWeek]

theorem readDate?_append (rest : List Char) :
    readDate? 10 (ys ++ '-' :: (ms ++ '-' :: (ds ++ rest))) = some (.monthDay year month day) := by
  unfold readDate?
  rw [hyear.takeNumber]
  simp only [Option.bind_eq_bind, Option.bind_some, List.head?_cons, decide_true, dropHyphen,
    if_true, hmonth.takeNumber]
  rw [hday.takeNumber]
  -- A month does not begin like a week.
  split
  · rename_i heq
    obtain ⟨a, b, rfl⟩ := hmonth.exists_two
    obtain rfl : a = 'W' := (List.cons.inj heq).1
    exact absurd hmonth.isDigit_head (by decide)
  · rfl

end

/-- A date of the calendar is found right. -/
theorem check_monthDay {d : Date} (hvalid : d.IsValid) (hfirst : 1 ≤ d.year) (hlast : d.year ≤ 9999) :
    (RawDate.monthDay d.year.toNat d.month d.day).check = .ok d.dayNumber := by
  obtain ⟨year, month, day⟩ := d
  obtain ⟨hpos, hle, hdayPos, hdayLe⟩ := hvalid
  simp only at hfirst hlast hpos hle hdayPos hdayLe ⊢
  have hyear : (year.toNat : Int) = year := Int.toNat_of_nonneg (by omega)
  simp only [RawDate.check, hyear]
  rw [if_neg (by omega), if_neg (by omega), if_neg (by omega)]

/-! ## Moments -/

namespace Moment

variable {m : Moment}

theorem day_range (hstart : 0 ≤ m.clock) (hend : m.clock < endOfTime) :
    0 ≤ Int.fdiv m.clock dayLength ∧ Int.fdiv m.clock dayLength < 3652059 :=
  IsUniversal.day_range (a := ⟨m.clock, some 0⟩) ⟨rfl, hstart, hend⟩

/-- The years of the calendar have one to four digits. -/
theorem year_range (hstart : 0 ≤ m.clock) (hend : m.clock < endOfTime) :
    1 ≤ m.date.year ∧ m.date.year ≤ 9999 := by
  obtain ⟨hday, hday'⟩ := day_range hstart hend
  exact yearOfDay_range hday hday'

/-- The characters of a date, with the numbers that they spell; the year may be padded. -/
theorem dateText_parts (hstart : 0 ≤ m.clock) (hend : m.clock < endOfTime) (width : Nat) :
    ∃ ms ds, (m.dateText width).toList =
        (padLeft width '0' (digitsText m.date.year.toNat)).toList ++ '-' :: (ms ++ '-' :: ds) ∧
      Spells ms 2 m.date.month ∧ Spells ds 2 m.date.day := by
  obtain ⟨hyear, -⟩ := year_range hstart hend
  have hvalid : m.date.IsValid := Date.isValid_ofDayNumber _
  have hmonth := hvalid.month_le
  have hlength := hvalid.day_le.trans (daysInMonth_le _ _)
  refine ⟨_, _, ?_, spells_twoDigits (n := m.date.month) ?_, spells_twoDigits (n := m.date.day) ?_⟩
  · have hhyphen : "-".toList = ['-'] := rfl
    simp only [dateText, String.toList_append, hhyphen, List.append_assoc, List.singleton_append]
    rw [intText_of_pos (by omega)]
    rfl
  · exact hmonth.trans_lt (by norm_num)
  · exact hlength.trans_lt (by norm_num)

theorem clockText_parts (m : Moment) : ∃ hs ms ss,
    m.clockText.toList = hs ++ ':' :: (ms ++ ':' :: ss) ∧ Spells hs 2 m.hour ∧
      Spells ms 2 m.minute ∧ Spells ss 2 m.seconds := by
  have hlt := m.timeOfDay_lt
  refine ⟨_, _, _, ?_, spells_twoDigits (n := m.hour) ?_, spells_twoDigits (n := m.minute) ?_,
    spells_twoDigits (n := m.seconds) ?_⟩
  · have hcolon : ":".toList = [':'] := rfl
    simp only [clockText, String.toList_append, hcolon, List.append_assoc, List.singleton_append]
    rfl
  · unfold hour
    omega
  · unfold minute
    omega
  · unfold seconds
    omega

/-- The clock of a moment by its parts. -/
theorem clock_eq (m : Moment) : Int.fdiv m.clock dayLength * dayLength +
    ((m.hour * 3600 + m.minute * 60 + m.seconds : Nat) : Int) * second + m.microsecond = m.clock := by
  have hday : dayLength = 86400000000 := by decide
  have hsplit := m.timeOfDay_eq
  unfold hour minute seconds microsecond second
  rw [fdiv_dayLength, hday]
  omega

end Moment

/-- **A written moment is read back**, with the places of its second and with its zone. -/
theorem readMoment_parts {m : Moment} (hstart : 0 ≤ m.clock) (hend : m.clock < endOfTime)
    {text : String} {places zone : List Char} {micros : Nat} {offset : Option Int}
    (hplaces : IsFraction places micros) (hzone : IsZone zone offset)
    (htext : text.toList =
      (m.dateText 4).toList ++ 'T' :: (m.clockText.toList ++ (places ++ zone))) :
    readMoment text = .ok ⟨m.clock - m.microsecond + micros, offset⟩ := by
  obtain ⟨ms, ds, hdate, hmonth, hday⟩ := Moment.dateText_parts hstart hend 4
  obtain ⟨hfirst, hlast⟩ := Moment.year_range hstart hend
  have hyear : Spells (padLeft 4 '0' (digitsText m.date.year.toNat)).toList 4 m.date.year.toNat :=
    spells_padLeft (by norm_num) (by norm_num; omega)
  generalize (padLeft 4 '0' (digitsText m.date.year.toNat)).toList = ys at hdate hyear
  obtain ⟨hs, is, ss, hclock, hhour, hminute, hsecond⟩ := m.clockText_parts
  have hlt := m.timeOfDay_lt
  have hcs : text.toList = ys ++ '-' :: (ms ++ '-' :: (ds ++ 'T' ::
      (hs ++ ':' :: (is ++ ':' :: (ss ++ (places ++ zone)))))) := by
    rw [htext, hdate, hclock]
    simp
  have hdrop : (ys ++ '-' :: (ms ++ '-' :: (ds ++ 'T' ::
      (hs ++ ':' :: (is ++ ':' :: (ss ++ (places ++ zone))))))).drop 10 =
      'T' :: (hs ++ ':' :: (is ++ ':' :: (ss ++ (places ++ zone)))) := by
    have hlength : (ys ++ '-' :: (ms ++ '-' :: ds)).length = 10 := by
      simp [hyear.length, hmonth.length, hday.length]
    rw [← hlength]
    simp
  have hnumber : m.date.dayNumber = Int.fdiv m.clock dayLength := Date.dayNumber_ofDayNumber _
  have hcheck : (RawDate.monthDay m.date.year.toNat m.date.month m.date.day).check =
      .ok m.date.dayNumber := check_monthDay (Date.isValid_ofDayNumber _) hfirst hlast
  have hhours : ¬ 23 < m.hour := by unfold Moment.hour; omega
  have hminutes : ¬ 59 < m.minute := by unfold Moment.minute; omega
  have hseconds : ¬ 59 < m.seconds := by unfold Moment.seconds; omega
  have hclockValue : m.date.dayNumber * dayLength +
      ((m.hour * 3600 + m.minute * 60 + m.seconds : Nat) : Int) * second + micros =
      m.clock - m.microsecond + micros := by
    have hsum := m.clock_eq
    rw [hnumber]
    omega
  unfold readMoment
  simp only [hcs, dateLength_append hyear hmonth hday, readDate?_append hyear hmonth hday, hdrop,
    readZoned?_append hhour hminute hsecond hplaces hzone, Option.bind_eq_bind, Option.bind_some,
    Option.pure_def, hcheck, if_neg hhours, if_neg hminutes, if_neg hseconds]
  cases offset with
  | none =>
    rw [← hclockValue]
    rfl
  | some o =>
    have hdistance := hzone.isDistance.lt
    have hlength : dayLength = 86400000000 := by decide
    simp only
    rw [if_neg (by omega), ← hclockValue]
    rfl

/-- A moment of the calendar, at a distance from universal time that a written moment tells, or at an
unknown one. -/
structure Moment.IsLegible (m : Moment) : Prop where
  from_start : 0 ≤ m.clock
  before_end : m.clock < endOfTime
  distance : ∀ o ∈ m.offset, IsDistance o

/-- Moments in universal time are legible. -/
theorem Moment.IsUniversal.isLegible {m : Moment} (h : m.IsUniversal) : m.IsLegible := by
  refine ⟨h.from_start, h.before_end, fun o ho => ?_⟩
  rw [h.offset] at ho
  cases ho
  exact ⟨by decide, .inl rfl⟩

/-- **The full text of a moment reads as the moment.** -/
theorem readMoment_isoText {m : Moment} (h : m.IsLegible) : readMoment m.isoText = .ok m := by
  have hmicros : IsFraction (Moment.microText m.microsecond).toList m.microsecond :=
    isFraction_microText (Nat.mod_lt _ (by norm_num))
  have hT : "T".toList = ['T'] := rfl
  obtain ⟨clock, offset⟩ := m
  cases offset with
  | none =>
    have hchars : (Moment.isoText ⟨clock, none⟩).toList = (Moment.dateText 4 ⟨clock, none⟩).toList ++
        'T' :: ((Moment.clockText ⟨clock, none⟩).toList ++
          ((Moment.microText (Moment.microsecond ⟨clock, none⟩)).toList ++ [])) := by
      simp [Moment.isoText, hT]
    have hread := readMoment_parts h.from_start h.before_end hmicros .unknown hchars
    simpa using hread
  | some o =>
    have hchars : (Moment.isoText ⟨clock, some o⟩).toList =
        (Moment.dateText 4 ⟨clock, some o⟩).toList ++
          'T' :: ((Moment.clockText ⟨clock, some o⟩).toList ++
            ((Moment.microText (Moment.microsecond ⟨clock, some o⟩)).toList ++
              (Moment.offsetText o).toList)) := by
      simp [Moment.isoText, hT]
    have hread := readMoment_parts h.from_start h.before_end hmicros (.distance (h.distance o rfl))
      hchars
    simpa using hread

/-! ## What texts spell -/

/-- A date lies in its year. -/
theorem dayNumber_range {d : Date} (h : d.IsValid) :
    daysBeforeYear d.year ≤ d.dayNumber ∧ d.dayNumber < daysBeforeYear (d.year + 1) := by
  obtain ⟨hpos, hle, hdayPos, hdayLe⟩ := h
  have hsplit : months = List.range' 1 (d.month - 1) ++ d.month :: List.range' (d.month + 1) (12 - d.month) := by
    have hcons : d.month :: List.range' (d.month + 1) (12 - d.month) =
        List.range' (1 + 1 * (d.month - 1)) (12 - d.month + 1) := by
      rw [List.range'_succ]
      congr 1 <;> congr 1 <;> omega
    rw [hcons, List.range'_append, months_eq]
    congr 1
    omega
  have hsum := sum_daysInMonth d.year
  obtain ⟨-, -, hbefore⟩ := sum_before_month d.year hsplit
  rw [hsplit, List.map_append, List.sum_append, List.map_cons, List.sum_cons, hbefore] at hsum
  have hrest : (0 : Int) ≤ ((List.range' (d.month + 1) (12 - d.month)).map
      (daysInMonth d.year)).sum := Int.natCast_nonneg _
  unfold Date.dayNumber
  rw [Nat.cast_add, Nat.cast_add] at hsum
  omega

theorem check_range {d : RawDate} {n : Int} (h : d.check = .ok n) : 0 ≤ n ∧ n < 3652059 := by
  have hfirst : daysBeforeYear 1 = 0 := by decide
  have hlast : daysBeforeYear 10000 = 3652059 := by decide
  cases d with
  | monthDay year month day =>
    simp only [RawDate.check] at h
    split at h
    · cases h
    · split at h
      · cases h
      · split at h
        · cases h
        · have hvalid : Date.IsValid ⟨year, month, day⟩ := by constructor <;> simp only <;> omega
          obtain ⟨hlow, hhigh⟩ := dayNumber_range hvalid
          have hstart := daysBeforeYear_mono (show (1 : Int) ≤ year by omega)
          have hend := daysBeforeYear_mono (show (year : Int) + 1 ≤ 10000 by omega)
          cases h
          simp only at hlow hhigh
          omega
  | dayNumber k =>
    simp only [RawDate.check] at h
    split at h
    · cases h
    · cases h
      have hspec := yearOfDay_spec n
      have hstart := daysBeforeYear_mono (show 1 ≤ yearOfDay n by omega)
      have hend := daysBeforeYear_mono (show yearOfDay n + 1 ≤ 10000 by omega)
      omega

theorem takeNumber_lt {n : Nat} {cs rest : List Char} {v : Nat}
    (h : takeNumber n cs = some (v, rest)) : v < 10 ^ n := by
  simp only [takeNumber] at h
  split at h
  · rename_i hdigits
    rw [Bool.and_eq_true, decide_eq_true_eq, List.all_eq_true] at hdigits
    cases h
    have hall : AllDigits (cs.take n) := hdigits.2
    have hlt := digitsValue_lt hall
    rwa [hdigits.1] at hlt
  · cases h

theorem readPlaces?_lt {time t : RawTime} {stop : Nat} {cs : List Char}
    (h : readPlaces? time stop cs = some t) : t.microsecond < 1000000 := by
  simp only [readPlaces?, Option.bind_eq_bind, Option.bind_eq_some_iff] at h
  obtain ⟨⟨v, rest⟩, hnumber, ht⟩ := h
  cases ht
  have hlt := takeNumber_lt hnumber
  have hwidth : min stop 6 + (6 - min stop 6) = 6 := by omega
  calc v * 10 ^ (6 - min stop 6) < 10 ^ min stop 6 * 10 ^ (6 - min stop 6) :=
        Nat.mul_lt_mul_of_pos_right hlt (Nat.pow_pos (by norm_num))
    _ = 1000000 := by rw [← Nat.pow_add, hwidth]

theorem readFields?_lt {colons : Bool} {setters : List (Nat → RawTime → RawTime)} :
    (∀ set ∈ setters, ∀ v t, (set v t).microsecond = t.microsecond) →
    ∀ {time t : RawTime} {stop : Nat} {cs : List Char}, time.microsecond < 1000000 →
      readFields? colons setters time stop cs = some t → t.microsecond < 1000000 := by
  induction setters with
  | nil => exact fun _ _ _ _ _ _ h => readPlaces?_lt h
  | cons set setters ih =>
    intro hsetters time t stop cs htime h
    obtain ⟨hset, hrest⟩ := List.forall_mem_cons.1 hsetters
    rw [readFields?] at h
    split at h
    · cases h
    · rename_i v rest _
      have hnext : (set v time).microsecond < 1000000 := by rwa [hset]
      simp only at h
      split at h
      · cases h
        exact hnext
      · split at h
        · cases h
          exact hnext
        · split at h
          · exact ih hrest hnext h
          · split at h
            · exact readPlaces?_lt h
            · split at h
              · exact ih hrest hnext h
              · cases h

theorem readTime?_lt {stop : Nat} {cs : List Char} {t : RawTime} (h : readTime? stop cs = some t) :
    t.microsecond < 1000000 := by
  refine readFields?_lt (fun set hset v t => ?_) (by norm_num) h
  simp only [List.mem_cons, List.not_mem_nil, or_false] at hset
  rcases hset with rfl | rfl | rfl <;> rfl

/-- The microseconds of a time, and a distance that is told if it is less than a day. -/
theorem readZoned?_spec {cs : List Char} {t : RawTime} {offset : Option Int}
    (h : readZoned? cs = some (t, offset)) : t.microsecond < 1000000 ∧
      ∀ o ∈ offset, o = 0 ∨ 1000000 ≤ o.natAbs := by
  simp only [readZoned?, Option.bind_eq_bind, Option.bind_eq_some_iff] at h
  obtain ⟨time, htime, h⟩ := h
  have hlt := readTime?_lt htime
  split at h
  · split at h
    · cases h
    · cases h
      exact ⟨hlt, fun o ho => absurd ho (Option.not_mem_none o)⟩
  · split at h
    · cases h
      refine ⟨hlt, fun o ho => .inl ?_⟩
      cases ho
      rfl
    · cases h
  · obtain ⟨z, hz, h⟩ := Option.bind_eq_some_iff.1 h
    have hz := readTime?_lt hz
    split at h
    · cases h
    · cases h
      refine ⟨hlt, fun o ho => ?_⟩
      cases ho
      unfold second
      split_ifs <;> omega

/-- The fields of a moment lie in their ranges if it passes the checks. -/
theorem clock_of_checks {date : RawDate} {time : RawTime} {offset : Option Int} {m : Moment}
    (h : (do
      let day ← date.check
      if 23 < time.hour then throw .hour
      if 59 < time.minute then throw .minute
      if 59 < time.second then throw .second
      let clock := day * dayLength +
        (time.hour * 3600 + time.minute * 60 + time.second : Nat) * second + time.microsecond
      return ⟨clock, offset⟩ : Except IsoError Moment) = .ok m) :
    ∃ day, date.check = .ok day ∧ time.hour ≤ 23 ∧ time.minute ≤ 59 ∧ time.second ≤ 59 ∧
      m = ⟨day * dayLength +
        (time.hour * 3600 + time.minute * 60 + time.second : Nat) * second + time.microsecond,
        offset⟩ := by
  cases hday : date.check with
  | error e =>
    rw [hday] at h
    cases h
  | ok day =>
    rw [hday] at h
    change (if 23 < time.hour then _ else _) = _ at h
    split at h
    · cases h
    · split at h
      · cases h
      · split at h
        · cases h
        · cases h
          exact ⟨day, rfl, by omega, by omega, by omega, rfl⟩

/-- **What a text spells is a legible moment.** -/
theorem isLegible_of_readMoment {text : String} {m : Moment} (h : readMoment text = .ok m) :
    m.IsLegible := by
  have hlength : dayLength = 86400000000 := by decide
  have hend : endOfTime = 3652059 * 86400000000 := by decide
  simp only [readMoment] at h
  split at h
  · cases h
  · rename_i date time offset hparts
    have htime : time.microsecond < 1000000 ∧ ∀ o ∈ offset, o = 0 ∨ 1000000 ≤ o.natAbs := by
      simp only [Option.bind_eq_bind, Option.bind_eq_some_iff] at hparts
      obtain ⟨date', -, hparts⟩ := hparts
      split at hparts
      · cases hparts
        exact ⟨by norm_num, fun o ho => absurd ho (Option.not_mem_none o)⟩
      · obtain ⟨⟨time', offset'⟩, hzoned, hparts⟩ := Option.bind_eq_some_iff.1 hparts
        cases hparts
        exact readZoned?_spec hzoned
    obtain ⟨hmicros, htold⟩ := htime
    -- The checks do not look at the distance, which has its own.
    have hlegible : (∀ o ∈ offset, o.natAbs < 86400000000) → (∃ day, date.check = .ok day ∧
        time.hour ≤ 23 ∧ time.minute ≤ 59 ∧ time.second ≤ 59 ∧ m = ⟨day * dayLength +
          (time.hour * 3600 + time.minute * 60 + time.second : Nat) * second + time.microsecond,
          offset⟩) → m.IsLegible := by
      rintro hdistance ⟨day, hday, hhour, hminute, hsecond, rfl⟩
      have hrange := check_range hday
      refine ⟨?_, ?_, fun o ho => ⟨hdistance o ho, htold o ho⟩⟩
      · unfold second
        simp only [hlength]
        omega
      · unfold second
        simp only [hlength, hend]
        omega
    split at h
    · rename_i o
      split at h
      · cases h
      · rename_i hrange
        refine hlegible (fun o' ho' => ?_) (clock_of_checks h)
        cases ho'
        omega
    · exact hlegible (fun o ho => absurd ho (Option.not_mem_none o)) (clock_of_checks h)

/-- **A moment is legible exactly if there is a text that spells it.** -/
theorem isLegible_iff_exists_text {m : Moment} :
    m.IsLegible ↔ ∃ text, readMoment text = .ok m :=
  ⟨fun h => ⟨m.isoText, readMoment_isoText h⟩, fun ⟨_, h⟩ => isLegible_of_readMoment h⟩

/-- What is read does not depend on how a fault is told. -/
theorem mapError_eq_ok_iff {ε δ α : Type} {x : Except ε α} {f : ε → δ} {a : α} :
    x.mapError f = .ok a ↔ x = .ok a := by
  cases x with
  | error e => exact iff_of_false (fun h => by cases h) fun h => by cases h
  | ok b => exact ⟨fun h => by cases h; rfl, fun h => by cases h; rfl⟩

end Workgraph.Calendar
