import Workgraph.Proofs.Calendar.Stamps
import Workgraph.Proofs.Text.Classes
import Workgraph.Transform
/-!
# Formatting dates

A value that stands for a moment is formatted as the timestamp of that moment in universal time. The
timestamp tells the moment to the millisecond; it is canonical, and formatting it again gives it back,
exactly from the year 1000 on (`Transform.IsTimestamp`). From then on timestamps are in the order of
the moments (`Transform.IsOrdered`). Earlier years are not padded, which breaks all three.
-/

namespace Workgraph.Transform

open Calendar

/-- A text is the timestamp of a value that stands for a moment, given in universal time. -/
structure IsTimestamp (v : Value) (text : String) (u : Moment) : Prop where
  universal : u.IsUniversal
  moment : ∃ m, moment v = .ok m ∧ u.clock = m.clock - m.offset.getD 0
  denotes : Denotes text (u.clock / 1000)
  canonical : IsCanonical text ↔ 1000 ≤ u.date.year
  again : ∀ params context, formatDate.apply params context (.text text) =
    if 1000 ≤ u.date.year then .ok (.text text)
    else formatDate.refuse ("Invalid isoformat string: " ++ Text.quoted text) (some "ValueError")

/-- How two timestamps compare, given the moments that they tell. -/
structure IsOrdered (text text' : String) (u u' : Moment) : Prop where
  same : u.clock / 1000 = u'.clock / 1000 → text = text'
  earlier : u.clock / 1000 < u'.clock / 1000 → (text < text' ↔ u.date.year.toNat ≤
    u'.date.year.toNat / 10 ^ (digitCount u'.date.year.toNat - digitCount u.date.year.toNat))
  canonical : 1000 ≤ u.date.year → 1000 ≤ u'.date.year →
    (text < text' ↔ u.clock / 1000 < u'.clock / 1000)

section
variable (params : Entries Value) (context : Context) {v : Value}

/-- A value is formatted as the timestamp of its moment. -/
theorem formatDate_of_moment {m u : Moment} (hm : moment v = .ok m) (hu : m.toUniversal? = some u) :
    formatDate.apply params context v = .ok (.text u.stamp) := by
  simp only [apply, formatDateOf, hm, bind, Except.bind, Moment.timestamp?, hu, Option.map_some]

theorem formatDate_of_fault {e : DateFault} (h : moment v = .error e) :
    formatDate.apply params context v = formatDate.refuse e.message (some e.name) := by
  simp only [apply, formatDateOf, h, bind, Except.bind]

/-- What is formatted stands for a moment that is in the calendar in universal time. -/
theorem formatDate_eq_ok_iff {w : Value} : formatDate.apply params context v = .ok w ↔
    ∃ m u, moment v = .ok m ∧ m.toUniversal? = some u ∧ w = .text u.stamp := by
  constructor
  · intro h
    cases hm : moment v with
    | error e =>
      rw [formatDate_of_fault params context hm] at h
      cases h
    | ok m =>
      cases hu : m.toUniversal? with
      | none =>
        simp only [apply, formatDateOf, hm, bind, Except.bind, Moment.timestamp?, hu,
          Option.map_none] at h
        cases h
      | some u =>
        rw [formatDate_of_moment params context hm hu] at h
        cases h
        exact ⟨m, u, rfl, hu, rfl⟩
  · rintro ⟨m, u, hm, hu, rfl⟩
    exact formatDate_of_moment params context hm hu

end

theorem toUniversal?_eq_some {m u : Moment} (h : m.toUniversal? = some u) :
    u.IsUniversal ∧ u.clock = m.clock - m.offset.getD 0 := by
  simp only [Moment.toUniversal?] at h
  split at h
  · rename_i hrange
    cases h
    exact ⟨⟨rfl, hrange.1, hrange.2⟩, rfl⟩
  · cases h

theorem toUniversal?_of_isUniversal {u : Moment} (h : u.IsUniversal) : u.toUniversal? = some u := by
  obtain ⟨clock, offset⟩ := u
  obtain rfl : offset = some 0 := h.offset
  rw [Moment.toUniversal?, Option.getD_some, Int.sub_zero, if_pos ⟨h.from_start, h.before_end⟩]

/-- Nothing is cut from the ends of a timestamp. -/
theorem strip_stamp {u : Moment} (h : u.IsUniversal) : Text.strip u.stamp = u.stamp := by
  have htells := h.tells_stamp
  rw [← String.toList_inj, Text.strip, String.toList_ofList]
  generalize u.stamp.toList = cs at htells
  obtain ⟨y, mo, d, hour, mi, s, z⟩ := htells
  rename_i ys ms ds hs is ss zs
  have hlast : ys ++ '-' :: (ms ++ '-' :: (ds ++ 'T' :: (hs ++ ':' :: (is ++ ':' :: (ss ++
      '.' :: (zs ++ ['Z'])))))) = ys ++ '-' :: (ms ++ '-' :: (ds ++ 'T' :: (hs ++ ':' :: (is ++
      ':' :: (ss ++ '.' :: zs))))) ++ ['Z'] := by simp
  refine Text.dropWhile_ends (fun c hc => ?_) fun c hc => ?_
  · cases ys with
    | nil =>
      cases hc
      decide
    | cons x xs =>
      cases hc
      exact Text.isBlank_of_isDecimal (Text.isDecimal_of_isDigit (y.allDigits c List.mem_cons_self))
  · rw [hlast, List.getLast?_concat] at hc
    cases hc
    decide

/-- A text that is not blank is read without the blanks at its ends. -/
theorem moment_text {s : String} (h : Text.strip s ≠ "") :
    moment (.text s) = (readMoment (Text.strip s)).mapError .text := by
  unfold moment
  exact if_neg h

theorem moment_stamp {u : Moment} (h : u.IsUniversal) :
    moment (.text u.stamp) = (readMoment u.stamp).mapError .text := by
  have hne : u.stamp ≠ "" := by
    intro heq
    have htells := h.tells_stamp
    rw [heq, String.toList_empty] at htells
    generalize hcs : ([] : List Char) = cs at htells
    obtain ⟨y, mo, d, hour, mi, s, z⟩ := htells
    simp at hcs
  rw [moment_text (by rwa [strip_stamp h]), strip_stamp h]

/-- A timestamp from the year 1000 on is formatted as itself, and an earlier one is refused. -/
theorem formatDate_stamp {u : Moment} (h : u.IsUniversal) (params : Entries Value)
    (context : Context) : formatDate.apply params context (.text u.stamp) =
      if 1000 ≤ u.date.year then .ok (.text u.stamp)
      else formatDate.refuse ("Invalid isoformat string: " ++ Text.quoted u.stamp)
        (some "ValueError") := by
  have hmoment := moment_stamp h
  split
  · rename_i hyear
    rw [h.readMoment_stamp hyear] at hmoment
    have hlow := h.from_start
    have hhigh := h.before_end
    have hend : endOfTime = 3652059 * 86400000000 := by decide
    have huniversal : Moment.toUniversal? ⟨u.clock / 1000 * 1000, some 0⟩ =
        some ⟨u.clock / 1000 * 1000, some 0⟩ := by
      rw [Moment.toUniversal?]
      simp only [Option.getD_some, Int.sub_zero]
      rw [if_pos (by omega)]
    rw [formatDate_of_moment params context hmoment huniversal]
    rw [Moment.stamp_congr (a := ⟨u.clock / 1000 * 1000, some 0⟩) (b := u)
      (Int.mul_ediv_cancel _ (by norm_num))]
  · rename_i hyear
    rw [h.readMoment_stamp_early (by omega)] at hmoment
    rw [formatDate_of_fault params context hmoment]
    rfl

/-- Timestamps are compared by their years, and within the years of four digits by their moments. -/
theorem isOrdered_stamp {u u' : Moment} (h : u.IsUniversal) (h' : u'.IsUniversal) :
    IsOrdered u.stamp u'.stamp u u' := by
  have hcount {m : Moment} (hm : m.IsUniversal) (hyear : 1000 ≤ m.date.year) :
      digitCount m.date.year.toNat = 4 :=
    hm.tells_stamp.isCanonical_iff.1 (hm.isCanonical_stamp_iff.2 hyear)
  have hlt {a b : Moment} (ha : a.IsUniversal) (hb : b.IsUniversal) (hyear : 1000 ≤ a.date.year)
      (hyear' : 1000 ≤ b.date.year) (hless : a.clock / 1000 < b.clock / 1000) : a.stamp < b.stamp :=
    Moment.stamp_lt ha hb hless ((hcount ha hyear).trans (hcount hb hyear').symm)
  refine ⟨Moment.stamp_congr, Moment.stamp_lt_iff h h', fun hyear hyear' => ⟨fun hless => ?_,
    hlt h h' hyear hyear'⟩⟩
  by_contra hge
  rcases (not_lt.1 hge).lt_or_eq with hgreater | heq
  · exact String.lt_asymm hless (hlt h' h hyear' hyear hgreater)
  · rw [Moment.stamp_congr heq] at hless
    exact String.lt_irrefl _ hless

/-- **What formatting dates gives**, for any two values that it takes: timestamps of their moments,
canonical and formatted as themselves exactly from the year 1000 on, and in the order of the moments as
far as the years tell. -/
theorem formatDate_gives_timestamps {params params' : Entries Value} {context context' : Context}
    {v v' w w' : Value} (h : formatDate.apply params context v = .ok w)
    (h' : formatDate.apply params' context' v' = .ok w') :
    ∃ text text' u u', w = .text text ∧ w' = .text text' ∧
      IsTimestamp v text u ∧ IsTimestamp v' text' u' ∧ IsOrdered text text' u u' := by
  have hstamp {v : Value} {m u : Moment} (hm : moment v = .ok m) (hu : m.toUniversal? = some u) :
      IsTimestamp v u.stamp u := by
    obtain ⟨huniversal, hclock⟩ := toUniversal?_eq_some hu
    exact ⟨huniversal, ⟨m, hm, hclock⟩, huniversal.denotes_stamp, huniversal.isCanonical_stamp_iff,
      formatDate_stamp huniversal⟩
  obtain ⟨m, u, hm, hu, rfl⟩ := (formatDate_eq_ok_iff params context).1 h
  obtain ⟨m', u', hm', hu', rfl⟩ := (formatDate_eq_ok_iff params' context').1 h'
  exact ⟨_, _, u, u', rfl, rfl, hstamp hm hu, hstamp hm' hu',
    isOrdered_stamp (toUniversal?_eq_some hu).1 (toUniversal?_eq_some hu').1⟩

/-- Half an hour before the year 1000 in universal time. -/
theorem formatDate_before_thousand :
    formatDate.apply [] [] (.text "1000-01-01T00:00:00+00:30") =
      .ok (.text "999-12-31T23:30:00.000Z") := by
  have hmoment : moment (.text "1000-01-01T00:00:00+00:30") =
      .ok ⟨364877 * dayLength, some 1800000000⟩ := by
    rw [moment_text (by cbv)]
    cbv
  rw [formatDate_of_moment [] [] hmoment
    (u := ⟨364877 * dayLength - 1800000000, some 0⟩) (by decide)]
  cbv

/-- The last moment of a week of the year 2020, in the year 2021. -/
theorem formatDate_after_week : formatDate.apply [] [] (.text "2020-W53-7T23:59:59,9999-05:00") =
    .ok (.text "2021-01-04T04:59:59.999Z") := by
  have hmoment : moment (.text "2020-W53-7T23:59:59,9999-05:00") =
      .ok ⟨737792 * dayLength + 86399999900, some (-18000000000)⟩ := by
    rw [moment_text (by cbv)]
    cbv
  rw [formatDate_of_moment [] [] hmoment
    (u := ⟨737792 * dayLength + 86399999900 + 18000000000, some 0⟩) (by decide)]
  cbv

/-- The first timestamp is later as a text, and is refused when it is formatted again. -/
theorem formatDate_early_and_late : ∃ text text' u u',
    Value.text "999-12-31T23:30:00.000Z" = .text text ∧
      Value.text "2021-01-04T04:59:59.999Z" = .text text' ∧
      IsTimestamp (.text "1000-01-01T00:00:00+00:30") text u ∧
      IsTimestamp (.text "2020-W53-7T23:59:59,9999-05:00") text' u' ∧ IsOrdered text text' u u' :=
  formatDate_gives_timestamps formatDate_before_thousand formatDate_after_week

/-- A timestamp of the year 999 is one character short. -/
theorem early_not_canonical : formatDate.apply [] [] (.text "0999-01-01") =
    .ok (.text "999-01-01T00:00:00.000Z") ∧ ¬ IsCanonical "999-01-01T00:00:00.000Z" := by
  have hmoment : moment (.text "0999-01-01") = .ok ⟨364512 * dayLength, none⟩ := by
    rw [moment_text (by cbv)]
    cbv
  refine ⟨?_, by decide⟩
  rw [formatDate_of_moment [] [] hmoment (u := ⟨364512 * dayLength, some 0⟩) (by decide)]
  cbv

end Workgraph.Transform
