import Workgraph.Calendar.Date
import Workgraph.Number.Shortest
/-!
# Moments

A moment is a time on a local clock, to the microsecond, with or without the distance of that clock
from universal time. This file defines the written forms of moments: the canonical timestamp, with
milliseconds in universal time, and the full form with the distance.
-/

namespace Workgraph.Calendar

/-- Microseconds of a second. -/
def second : Int := 1000000

/-- Microseconds of a day. -/
def dayLength : Int := 86400 * second

/-- The first microsecond after year 9999. -/
def endOfTime : Int := 3652059 * dayLength

/-- The microseconds from the start of year 1 to the start of 1970. -/
def epoch : Int := 719162 * dayLength

/-- A local time in microseconds from the start of year 1, and the distance of the local clock from
universal time. -/
structure Moment where
  clock : Int
  offset : Option Int
deriving DecidableEq, Repr

namespace Moment

/-- The date of a moment on its local clock. -/
def date (m : Moment) : Date := Date.ofDayNumber (Int.fdiv m.clock dayLength)

/-- The microseconds since midnight. -/
def timeOfDay (m : Moment) : Nat := (Int.fmod m.clock dayLength).toNat

def hour (m : Moment) : Nat := m.timeOfDay / 3600000000
def minute (m : Moment) : Nat := m.timeOfDay / 60000000 % 60
def seconds (m : Moment) : Nat := m.timeOfDay / 1000000 % 60
def microsecond (m : Moment) : Nat := m.timeOfDay % 1000000

/-- The moment in universal time, unless that leaves the calendar. A clock of unknown distance
counts as universal. -/
def toUniversal? (m : Moment) : Option Moment :=
  let t := m.clock - m.offset.getD 0
  if 0 ≤ t ∧ t < endOfTime then some ⟨t, some 0⟩ else none

/-- A number of at least two digits. -/
def twoDigits (n : Nat) : String := padLeft 2 '0' (digitsText n)

/-- Hours, minutes and seconds. -/
def clockText (m : Moment) : String :=
  twoDigits m.hour ++ ":" ++ twoDigits m.minute ++ ":" ++ twoDigits m.seconds

/-- The date, with the year as it is or padded to four digits. -/
def dateText (yearWidth : Nat) (m : Moment) : String :=
  let d := m.date
  padLeft yearWidth '0' (intText d.year) ++ "-" ++ twoDigits d.month ++ "-" ++ twoDigits d.day

/-- The canonical timestamp of a moment in universal time: milliseconds, and `Z` at the end. The
year is not padded. -/
def stamp (m : Moment) : String :=
  m.dateText 1 ++ "T" ++ m.clockText ++ "." ++
    padLeft 3 '0' (digitsText (m.microsecond / 1000)) ++ "Z"

/-- The canonical timestamp of a moment, unless it leaves the calendar. -/
def timestamp? (m : Moment) : Option String := m.toUniversal?.map stamp

/-- Date and time separated by a blank, to the second. -/
def shortText (m : Moment) : String := m.dateText 1 ++ " " ++ m.clockText

/-- Six digits of microseconds after a point, unless they are all zero. -/
def microText (n : Nat) : String := if n = 0 then "" else "." ++ padLeft 6 '0' (digitsText n)

/-- A distance from universal time. -/
def offsetText (o : Int) : String :=
  let n := o.natAbs
  let s := n / 1000000
  (if o < 0 then "-" else "+") ++ twoDigits (s / 3600) ++ ":" ++ twoDigits (s / 60 % 60) ++
    (if n % 60000000 = 0 then "" else ":" ++ twoDigits (s % 60) ++ microText (n % 1000000))

/-- The full form of a moment: date, time, microseconds unless zero, and the distance if known. -/
def isoText (m : Moment) : String :=
  m.dateText 4 ++ "T" ++ m.clockText ++ microText m.microsecond ++
    (match m.offset with
      | some o => offsetText o
      | none => "")

/-- A moment as JSON holds it: `Z` stands for universal time, and seconds of the distance are left
out. -/
def jsonText (m : Moment) : String :=
  m.dateText 4 ++ "T" ++ m.clockText ++ microText m.microsecond ++
    (match m.offset with
      | some o =>
        if o = 0 then "Z"
        else offsetText (if o < 0 then -(o.natAbs / 60000000 * 60000000 : Nat)
          else (o.natAbs / 60000000 * 60000000 : Nat))
      | none => "")

end Moment

end Workgraph.Calendar
