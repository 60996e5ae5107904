import Workgraph.Calendar.Moment
import Workgraph.Number.Binary64
/-!
# Moments as programs exchange them

A date with hyphens, one of four separators, a time with colons and perhaps places of a second, and
perhaps the distance from universal time; or a date alone, which means its midnight; or the seconds
or milliseconds since the start of 1970. Places beyond the sixth are left out.
-/

namespace Workgraph.Calendar

/-- What is wrong with a text or number that should be a moment. -/
inductive InterchangeFault where
  | tooShort
  | tooLong
  | yearDigit
  | monthDigit
  | dayDigit
  | dateSeparator
  | momentSeparator
  | hourDigit
  | minuteDigit
  | secondDigit
  | noPlaces
  | timeSeparator
  | offsetSign
  | offsetHourDigit
  | offsetMinuteDigit
  | monthRange
  | dayRange
  | hourRange
  | minuteRange
  | secondRange
  | offsetMinuteRange
  | offsetRange
  | tooEarly
  | tooLate
  | notANumber
deriving DecidableEq, Repr

/-- The words for a fault. -/
def InterchangeFault.words : InterchangeFault → String
  | .tooShort => "input is too short"
  | .tooLong => "unexpected extra characters at the end of the input"
  | .yearDigit => "invalid character in year"
  | .monthDigit => "invalid character in month"
  | .dayDigit => "invalid character in day"
  | .dateSeparator => "invalid date separator, expected `-`"
  | .momentSeparator => "invalid datetime separator, expected `T`, `t`, `_` or space"
  | .hourDigit => "invalid character in hour"
  | .minuteDigit => "invalid character in minute"
  | .secondDigit => "invalid character in second"
  | .noPlaces => "invalid character in second fraction"
  | .timeSeparator => "invalid time separator, expected `:`"
  | .offsetSign => "invalid timezone sign"
  | .offsetHourDigit => "invalid character in timezone hour"
  | .offsetMinuteDigit => "invalid character in timezone minute"
  | .monthRange => "month value is outside expected range of 1-12"
  | .dayRange => "day value is outside expected range"
  | .hourRange => "hour value is outside expected range of 0-23"
  | .minuteRange => "minute value is outside expected range of 0-59"
  | .secondRange => "second value is outside expected range of 0-59"
  | .offsetMinuteRange => "timezone minute value is outside expected range of 0-59"
  | .offsetRange => "timezone offset must be less than 24 hours"
  | .tooEarly => "dates before 1600 are not supported as unix timestamps"
  | .tooLate => "dates after 9999 are not supported as unix timestamps"
  | .notANumber => "NaN values not permitted"

/-- The octets of a text, each as a character of the same number. -/
def octets (s : String) : List Char := s.toUTF8.toList.map fun b => Char.ofNat b.toNat

/-- The number that two digits at the start spell, and the rest. -/
def twoDigitNumber (fault : InterchangeFault) :
    List Char → Except InterchangeFault (Nat × List Char)
  | a :: b :: rest =>
    if a.isDigit && b.isDigit then .ok (10 * (a.toNat - 48) + (b.toNat - 48), rest)
    else .error fault
  | _ => .error fault

/-- Drops a character that must come next. -/
def dropSeparator (c : Char) (fault : InterchangeFault) :
    List Char → Except InterchangeFault (List Char)
  | d :: rest => if d = c then .ok rest else .error fault
  | [] => .error fault

/-- The day number of the date at the start, and the rest. -/
def readHyphenDate (cs : List Char) : Except InterchangeFault (Int × List Char) := do
  if cs.length < 10 then throw .tooShort
  let (century, cs) ← twoDigitNumber .yearDigit cs
  let (years, cs) ← twoDigitNumber .yearDigit cs
  let cs ← dropSeparator '-' .dateSeparator cs
  let (month, cs) ← twoDigitNumber .monthDigit cs
  let cs ← dropSeparator '-' .dateSeparator cs
  let (day, cs) ← twoDigitNumber .dayDigit cs
  if month < 1 ∨ 12 < month then throw .monthRange
  let year : Int := 100 * century + years
  if day < 1 ∨ daysInMonth year month < day then throw .dayRange
  return (Date.dayNumber ⟨year, month, day⟩, cs)

/-- The microseconds that places of a second stand for. -/
def placesValue (places : List Char) : Nat :=
  let six := (places ++ List.replicate 6 '0').take 6
  six.foldl (fun n c => 10 * n + (c.toNat - 48)) 0

/-- The microseconds of the places of a second at the start, if there are any, and the rest. -/
def readPlaces (cs : List Char) : Except InterchangeFault (Nat × List Char) :=
  match cs with
  | c :: rest =>
    if c = '.' ∨ c = ',' then
      let places := rest.takeWhile Char.isDigit
      if places.isEmpty then .error .noPlaces
      else .ok (placesValue places, rest.dropWhile Char.isDigit)
    else .ok (0, cs)
  | [] => .ok (0, [])

/-- The microseconds since midnight of the time at the start, and the rest. -/
def readColonTime (cs : List Char) : Except InterchangeFault (Int × List Char) := do
  if cs.length < 5 then throw .tooShort
  let (hour, cs) ← twoDigitNumber .hourDigit cs
  let cs ← dropSeparator ':' .timeSeparator cs
  let (minute, cs) ← twoDigitNumber .minuteDigit cs
  if 23 < hour then throw .hourRange
  if 59 < minute then throw .minuteRange
  let start : Int := ((hour * 60 + minute) * 60 : Nat) * second
  match cs with
  | ':' :: rest => do
    let (seconds, rest) ← twoDigitNumber .secondDigit rest
    if 59 < seconds then throw .secondRange
    let (micros, rest) ← readPlaces rest
    return (start + seconds * second + micros, rest)
  | _ => return (start, cs)

/-- The sign of a distance at the start, and the rest. The minus sign may be the hyphen or the
mathematical sign. -/
def readOffsetSign : List Char → Except InterchangeFault (Int × List Char)
  | '+' :: rest => .ok (1, rest)
  | '-' :: rest => .ok (-1, rest)
  | a :: b :: c :: rest =>
    if [a, b, c] = octets "−" then .ok (-1, rest) else .error .offsetSign
  | _ => .error .offsetSign

/-- The distance from universal time that the rest of a text gives, if it gives one. -/
def readOffset (cs : List Char) : Except InterchangeFault (Option Int) :=
  match cs with
  | [] => .ok none
  | 'Z' :: rest | 'z' :: rest => if rest.isEmpty then .ok (some 0) else .error .tooLong
  | _ => do
    let (sign, cs) ← readOffsetSign cs
    let (hours, cs) ← twoDigitNumber .offsetHourDigit cs
    let cs := match cs with
      | ':' :: rest => rest
      | _ => cs
    let (minutes, cs) ← twoDigitNumber .offsetMinuteDigit cs
    if 59 < minutes then throw .offsetMinuteRange
    let distance : Int := ((hours * 60 + minutes) * 60 : Nat)
    if 86400 ≤ distance then throw .offsetRange
    if !cs.isEmpty then throw .tooLong
    return some (sign * distance * second)

/-- The moment that date and time spell. -/
def readFull (cs : List Char) : Except InterchangeFault Moment := do
  let (day, cs) ← readHyphenDate cs
  match cs with
  | c :: rest => do
    if !(['T', 't', ' ', '_'].contains c) then throw .momentSeparator
    let (time, rest) ← readColonTime rest
    let offset ← readOffset rest
    return ⟨day * dayLength + time, offset⟩
  | [] => throw .momentSeparator

/-- The midnight of the date that a text spells. -/
def readMidnight (cs : List Char) : Except InterchangeFault Moment := do
  let (day, rest) ← readHyphenDate cs
  if !rest.isEmpty then throw .tooLong
  return ⟨day * dayLength, none⟩

/-- The greatest number that counts seconds rather than milliseconds. -/
def secondsLimit : Nat := 20000000000

/-- The moment so many seconds, or milliseconds if there are very many, and some microseconds after
the start of 1970. -/
def ofCount (count : Int) (micros : Nat) : Except InterchangeFault Moment :=
  let (seconds, extra) :=
    if count.natAbs ≤ secondsLimit then (count, 0)
    else (Int.fdiv count 1000, Int.fmod count 1000 * 1000)
  if seconds < -11676096000 then .error .tooEarly
  else if 253402300799 < seconds then .error .tooLate
  else .ok ⟨epoch + seconds * second + extra + micros, some 0⟩

/-- The moment of a number of seconds or milliseconds with places. -/
def ofRealCount (x : Binary64) : Except InterchangeFault Moment :=
  if x.isNaN then .error .notANumber
  else
    match x.truncate? with
    | none =>
      .error (if Binary64.less x (Binary64.zero false) then .tooEarly else .tooLate)
    | some whole =>
      let part := x.fraction
      let below := Binary64.less part (Binary64.zero false)
      let size := if below then part.neg else part
      let micros := ((size.mul (Binary64.ofInt second)).roundEven?.getD 0).toNat
      ofCount (if below then whole - 1 else whole) micros

/-- The integer that a sign and digits spell, and the places after a point. -/
def countOf? (cs : List Char) : Option (Int × List Char) :=
  let (negative, digits) := match cs with
    | '-' :: rest => (true, rest)
    | '+' :: rest => (false, rest)
    | _ => (false, cs)
  let whole := digits.takeWhile Char.isDigit
  let size : Nat := whole.foldl (fun n c => 10 * n + (c.toNat - 48)) 0
  let value : Int := if negative then -(size : Int) else size
  match whole, digits.dropWhile Char.isDigit with
  | [], _ => none
  | _, [] => some (value, [])
  | _, '.' :: places => if places.all Char.isDigit then some (value, places) else none
  | _, _ => none

/-- The moment that a text spells, as date and time, as a date, or as a number. -/
def readInterchange (text : String) : Except InterchangeFault Moment :=
  let cs := octets text
  match readFull cs, countOf? cs with
  | .ok m, _ => .ok m
  | .error _, some (count, places) => ofCount count (placesValue places)
  | .error _, none => readMidnight cs

end Workgraph.Calendar
