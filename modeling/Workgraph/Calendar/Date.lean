/-!
# Dates

Dates of the Gregorian calendar from year 1 on, as day numbers. Day 0 is 1 January of year 1.
-/

namespace Workgraph.Calendar

/-- Whether a year is a leap year. -/
def isLeap (year : Int) : Bool :=
  Int.fmod year 4 = 0 && (Int.fmod year 100 ≠ 0 || Int.fmod year 400 = 0)

/-- The days before the first day of a year. -/
def daysBeforeYear (year : Int) : Int :=
  let y := year - 1
  365 * y + Int.fdiv y 4 - Int.fdiv y 100 + Int.fdiv y 400

/-- The number of days of a month. -/
def daysInMonth (year : Int) (month : Nat) : Nat :=
  if month = 2 then (if isLeap year then 29 else 28)
  else if month = 4 ∨ month = 6 ∨ month = 9 ∨ month = 11 then 30
  else 31

/-- The days of a year before the first day of a month. -/
def daysBeforeMonth (year : Int) (month : Nat) : Nat :=
  ((List.range (month - 1)).map fun m => daysInMonth year (m + 1)).foldr (· + ·) 0

/-- A date by year, month and day. -/
structure Date where
  year : Int
  month : Nat
  day : Nat
deriving DecidableEq, Repr

/-- The number of a date. -/
def Date.dayNumber (d : Date) : Int :=
  daysBeforeYear d.year + daysBeforeMonth d.year d.month + d.day - 1

/-- The year of a day. Every 400 years have the same number of days; inside them the estimate from
the mean length is at most one too great. -/
def yearOfDay (n : Int) : Int :=
  let cycle := Int.fdiv n 146097
  let y := cycle * 400 + Int.fdiv (Int.fmod n 146097 * 400) 146097 + 1
  if daysBeforeYear (y + 1) ≤ n then y + 1
  else if n < daysBeforeYear y then y - 1
  else y

/-- The month and day of a day of a year, counted from zero; the list holds the months still to
consider. -/
def monthAndDay (year : Int) : List Nat → Nat → Nat × Nat
  | [], day => (12, day + 1)
  | m :: rest, day =>
    if day < daysInMonth year m then (m, day + 1)
    else monthAndDay year rest (day - daysInMonth year m)

/-- The date of a day number. -/
def Date.ofDayNumber (n : Int) : Date :=
  let year := yearOfDay n
  let (month, day) := monthAndDay year [1, 2, 3, 4, 5, 6, 7, 8, 9, 10, 11, 12]
    (n - daysBeforeYear year).toNat
  ⟨year, month, day⟩

/-- The day of the week, Monday as zero. -/
def weekday (dayNumber : Int) : Nat := (Int.fmod dayNumber 7).toNat

/-- Whether a year has 53 weeks: it starts on a Thursday, or on a Wednesday and is a leap year. -/
def hasLongYear (year : Int) : Bool :=
  let first := weekday (daysBeforeYear year)
  first = 3 || (first = 2 && isLeap year)

/-- The day number of a day of a numbered week; the first week holds the first Thursday. -/
def dayOfWeek? (year : Int) (week day : Nat) : Option Int :=
  if week = 0 ∨ 53 < week ∨ (week = 53 ∧ !hasLongYear year) ∨ day = 0 ∨ 7 < day then none
  else
    let first := daysBeforeYear year
    let monday := first - weekday first + (if 3 < weekday first then 7 else 0)
    some (monday + 7 * (week - 1) + (day - 1))

end Workgraph.Calendar
