import Workgraph.Calendar.Moment
import Workgraph.Number.Word
import Workgraph.Text.Quoted
/-!
# Reading dates and times

Dates as year, month and day or as year, week and day, with or without hyphens; times with up to six
places of a second; and distances from universal time. Any character may stand between date and
time.
-/

namespace Workgraph.Calendar

/-- Why a text is no moment. -/
inductive IsoError where
  | malformed (text : String)
  | year (year : Int)
  | month
  | day
  | hour
  | minute
  | second
  | offset (distance : Int)
deriving DecidableEq, Repr

/-- A distance in days, seconds and microseconds, as messages show it. -/
def distanceText (d : Int) : String :=
  let days := Int.fdiv d dayLength
  let rest := Int.fmod d dayLength
  let seconds := rest / second
  let micros := rest % second
  let part (name : String) (n : Int) := if n = 0 then [] else [name ++ "=" ++ intText n]
  let parts := part "days" days ++ part "seconds" seconds ++ part "microseconds" micros
  "datetime.timedelta(" ++ (if parts.isEmpty then "0" else ", ".intercalate parts) ++ ")"

/-- The message of an error. -/
def IsoError.message : IsoError → String
  | .malformed text => "Invalid isoformat string: " ++ Text.quoted text
  | .year y => "year " ++ intText y ++ " is out of range"
  | .month => "month must be in 1..12"
  | .day => "day is out of range for month"
  | .hour => "hour must be in 0..23"
  | .minute => "minute must be in 0..59"
  | .second => "second must be in 0..59"
  | .offset d =>
    "offset must be a timedelta strictly between -timedelta(hours=24) and " ++
      "timedelta(hours=24), not " ++ distanceText d ++ "."

/-- The number that the first `n` characters spell, and the rest. -/
def takeNumber (n : Nat) (cs : List Char) : Option (Nat × List Char) :=
  let ds := cs.take n
  if ds.length = n && ds.all Char.isDigit then
    some (ds.foldl (fun v c => 10 * v + (c.toNat - 48)) 0, cs.drop n)
  else none

/-- The length of the date at the start of a text. Where a week is followed by a hyphen and a digit,
a second digit makes the hyphen the separator of date and time. -/
def dateLength (cs : List Char) : Nat :=
  if cs.length = 7 then 7
  else if cs[4]? = some '-' then
    if cs[5]? = some 'W' then
      if cs[8]? = some '-' then
        (if (cs[10]?.map Char.isDigit).getD false then 8 else 10)
      else 8
    else 10
  else if cs[4]? = some 'W' then
    let run := ((cs.drop 7).takeWhile Char.isDigit).length
    if run < 2 then 7 + run else if run % 2 = 1 then 7 else 8
  else 8

/-- What a date text denotes, before the ranges are checked. -/
inductive RawDate where
  | monthDay (year month day : Nat)
  | dayNumber (n : Int)

/-- A hyphen at the start, if the date uses hyphens. -/
def dropHyphen (used : Bool) (cs : List Char) : Option (List Char) :=
  if used then
    match cs with
    | '-' :: rest => some rest
    | _ => none
  else some cs

/-- The date of the given length at the start of a text. -/
def readDate? (length : Nat) (cs : List Char) : Option RawDate := do
  let (year, rest) ← takeNumber 4 cs
  let hyphens := rest.head? = some '-'
  let rest ← dropHyphen hyphens rest
  match rest with
  | 'W' :: rest => do
    let (week, rest) ← takeNumber 2 rest
    if cs.length - rest.length < length then do
      let rest ← dropHyphen hyphens rest
      let (day, _) ← takeNumber 1 rest
      (dayOfWeek? year week day).map .dayNumber
    else (dayOfWeek? year week 1).map .dayNumber
  | _ => do
    let (month, rest) ← takeNumber 2 rest
    let rest ← dropHyphen hyphens rest
    let (day, _) ← takeNumber 2 rest
    return .monthDay year month day

/-- The year, month and day of a date, each in its range. -/
def RawDate.check : RawDate → Except IsoError Int
  | .monthDay y m d =>
    if y = 0 ∨ 9999 < y then .error (.year y)
    else if m = 0 ∨ 12 < m then .error .month
    else if d = 0 ∨ daysInMonth y m < d then .error .day
    else .ok (Date.mk y m d).dayNumber
  | .dayNumber n =>
    let y := yearOfDay n
    if y < 1 ∨ 9999 < y then .error (.year y) else .ok n

/-- A time of day, and whether characters stand after it. -/
structure RawTime where
  hour : Nat
  minute : Nat
  second : Nat
  microsecond : Nat
  more : Bool

/-- Places of a second: at most six count, and further digits are skipped. The text up to `stop`
characters belongs to the time. -/
def readPlaces? (time : RawTime) (stop : Nat) (cs : List Char) : Option RawTime := do
  let n := min stop 6
  let (v, rest) ← takeNumber n cs
  let rest := rest.dropWhile Char.isDigit
  return { time with microsecond := v * Nat.pow 10 (6 - n), more := !rest.isEmpty }

/-- The fields of a time after those already read. `stop` characters belong to the time, and the
characters after them stay in sight. -/
def readFields? (colons : Bool) (setters : List (Nat → RawTime → RawTime)) (time : RawTime)
    (stop : Nat) (cs : List Char) : Option RawTime :=
  match setters with
  | [] => readPlaces? time stop cs
  | set :: setters =>
    match takeNumber 2 cs with
    | none => none
    | some (v, rest) =>
      let time := set v time
      if stop ≤ 3 then some { time with more := !rest.isEmpty }
      else
        match rest with
        | [] => some time
        | c :: after =>
          if colons && c = ':' then readFields? colons setters time (stop - 3) after
          else if c = '.' || c = ',' then readPlaces? time (stop - 3) after
          else if !colons then readFields? colons setters time (stop - 2) rest
          else none

/-- A time at the start of a text, of which `stop` characters belong to it. -/
def readTime? (stop : Nat) (cs : List Char) : Option RawTime :=
  readFields? (cs[2]? = some ':')
    [fun v t => { t with hour := v }, fun v t => { t with minute := v },
      fun v t => { t with second := v }]
    ⟨0, 0, 0, 0, false⟩ stop cs

/-- A time with an optional distance from universal time, in microseconds. -/
def readZoned? (cs : List Char) : Option (RawTime × Option Int) := do
  let isZone (c : Char) : Bool := c = '+' || c = '-' || c = 'Z'
  let stop := (cs.takeWhile fun c => !isZone c).length
  let time ← readTime? stop cs
  match cs.drop stop with
  | [] => if time.more then none else some (time, none)
  | 'Z' :: rest => if rest.isEmpty then some (time, some 0) else none
  | sign :: rest => do
    let z ← readTime? rest.length rest
    if z.more then none
    else
      let whole : Int := z.hour * 3600 + z.minute * 60 + z.second
      let distance := if whole = 0 then 0 else whole * second + z.microsecond
      some (time, some (if sign = '-' then -distance else distance))

/-- The moment that a text spells. -/
def readMoment (text : String) : Except IsoError Moment :=
  let cs := text.toList
  let length := dateLength cs
  let parts : Option (RawDate × RawTime × Option Int) := do
    let date ← readDate? length cs
    match cs.drop length with
    | [] => return (date, ⟨0, 0, 0, 0, false⟩, none)
    | _ :: rest => do
      let (time, offset) ← readZoned? rest
      return (date, time, offset)
  match parts with
  | none => .error (.malformed text)
  | some (date, time, offset) => do
    match offset with
    | some o => if o ≤ -dayLength ∨ dayLength ≤ o then throw (.offset o)
    | none => pure ()
    let day ← date.check
    if 23 < time.hour then throw .hour
    if 59 < time.minute then throw .minute
    if 59 < time.second then throw .second
    let clock := day * dayLength +
      (time.hour * 3600 + time.minute * 60 + time.second : Nat) * second + time.microsecond
    return ⟨clock, offset⟩

/-! ## Seconds since 1970 -/

/-- Why a number of seconds is no moment. -/
inductive EpochError where
  | notANumber
  | range
  | unrepresentable
  | year (year : Int)
deriving DecidableEq, Repr

/-- The message of an error. -/
def EpochError.message : EpochError → String
  | .notANumber => "Invalid value NaN (not a number)"
  | .range => "timestamp out of range for platform time_t"
  | .unrepresentable => "[Errno 75] Value too large for defined data type"
  | .year y => "year " ++ intText y ++ " is out of range"

/-- The name of an error. -/
def EpochError.name : EpochError → String
  | .notANumber | .year _ => "ValueError"
  | .range => "OverflowError"
  | .unrepresentable => "OSError"

/-- The moment a number of seconds after the start of 1970. The places of a second are rounded to
microseconds by binary64 arithmetic, ties to even. -/
def ofEpochSeconds (x : Binary64) : Except EpochError Moment :=
  match x.truncate?, (x.fraction * Binary64.ofInt second).roundEven? with
  | some whole, some micros =>
    let (whole, micros) :=
      if micros ≥ second then (whole + 1, micros - second)
      else if micros < 0 then (whole - 1, micros + second)
      else (whole, micros)
    if !isWord whole then .error .range
    else
      let clock := epoch + whole * second + micros
      let year := yearOfDay (Int.fdiv clock dayLength)
      if year - 1900 < -2147483648 ∨ 2147483648 ≤ year - 1900 then .error .unrepresentable
      else if year < 1 ∨ 9999 < year then .error (.year (Int.bmod year 4294967296))
      else .ok ⟨clock, some 0⟩
  | _, _ => .error (if x.isNaN then .notANumber else .range)

end Workgraph.Calendar
