import Workgraph.Arithmetic.Parser
import Workgraph.Calendar.Iso
import Workgraph.Number.Places
import Workgraph.Pattern.Match
import Workgraph.Text.Case
import Workgraph.Value.Coerce
import Workgraph.Value.Document
import Workgraph.Value.Literal
import Workgraph.Value.Path
/-!
# Transforms

The named operations on values that a data node applies one after another. A transform sees the
value, its own parameters and, for arithmetic only, the variables of the run. A name that is no
transform leaves the value as it is.
-/

namespace Workgraph

/-- A named operation on values. -/
inductive Transform where
  | formatDate
  | calculate
  | concatenate
  | extract
  | uppercase
  | lowercase
  | trim
  | round
deriving DecidableEq, Repr

namespace Transform

/-- The transforms in the order of their catalogue. -/
def all : List Transform :=
  [formatDate, calculate, concatenate, extract, uppercase, lowercase, trim, round]

/-- The name of a transform. -/
def name : Transform → String
  | formatDate => "format_date"
  | calculate => "calculate"
  | concatenate => "concatenate"
  | extract => "extract"
  | uppercase => "uppercase"
  | lowercase => "lowercase"
  | trim => "trim"
  | round => "round"

/-- The transform of a name. -/
def ofName? (s : String) : Option Transform := all.find? fun t => t.name = s

/-- A failure of a transform for a reason, with the name of the failure behind it. -/
def refuse {α : Type} (t : Transform) (reason : String) (behind : Option String) :
    Except Fault α :=
  .error (.transform t.name reason behind)

/-- A parameter, or the default if it is missing, null, false, zero or empty. -/
def param (params : Entries Value) (name : String) (default : Value) : Value :=
  match params.get? name with
  | some v => if v.isPresent then v else default
  | none => default

/-- Why a value is no moment. -/
inductive DateFault where
  | text (error : Calendar.IsoError)
  | seconds (error : Calendar.EpochError)
  /-- An integer that no binary64 number is near to. -/
  | integerSize
  | notADate (literal : String)
  /-- A value that cannot be shown, since it holds an integer with too many digits. -/
  | longInteger
  /-- A moment that leaves the calendar in universal time. -/
  | calendar

/-- The words for a fault of a date. -/
def DateFault.message : DateFault → String
  | .text e => e.message
  | .seconds e => e.message
  | .integerSize => "integer division result too large for a float"
  | .notADate literal => "cannot interpret " ++ literal ++ " as a date"
  | .longInteger => Defect.longInteger.message
  | .calendar => "date value out of range"

/-- The name of a fault of a date. -/
def DateFault.name : DateFault → String
  | .text _ | .notADate _ | .longInteger => "ValueError"
  | .seconds e => e.name
  | .integerSize | .calendar => "OverflowError"

/-- The moment a number of seconds after the start of 1970. -/
def secondsMoment (x : Binary64) : Except DateFault Calendar.Moment :=
  (Calendar.ofEpochSeconds x).mapError .seconds

/-- The moment of a value: a text in one of the forms of dates, or milliseconds since 1970. -/
def moment : Value → Except DateFault Calendar.Moment
  | .int n => (Arithmetic.intQuotient? n 1000).elim (.error .integerSize) secondsMoment
  | .real x => secondsMoment (x / Binary64.ofInt 1000)
  | .text s =>
    let trimmed := Text.strip s
    if trimmed = "" then .error (.notADate (Value.text s).literal)
    else (Calendar.readMoment trimmed).mapError .text
  | v => .error (if v.hasLongInteger then .longInteger else .notADate v.literal)

/-- The canonical timestamp of the moment of a value. -/
def formatDateOf (v : Value) : Except Fault Value :=
  let stamp := do
    let m ← moment v
    match m.timestamp? with
    | some s => .ok s
    | none => .error DateFault.calendar
  match stamp with
  | .ok s => .ok (.text s)
  | .error e => formatDate.refuse e.message (some e.name)

/-- The value of the expression among the parameters. -/
def calculateOf (params : Entries Value) (context : Context) : Except Fault Value :=
  match param params "expression" (.text "") with
  | .text s => (Arithmetic.evaluate s (Value.object context).lookup).map Value.ofNumber
  | v => .error (.defect (.missingOperation v.kind "strip"))

/-- The parts of a value that can be gone through one by one. -/
def partsOf : Value → Except Fault (List Value)
  | .list items => .ok items
  | .text s => .ok (s.toList.map fun c => .text (String.singleton c))
  | .object fields => .ok (fields.map fun f => .text f.1)
  | v => .error (.defect (.notIterable v.kind))

/-- The texts of the parts, with a separator between them. -/
def concatenateOf (params : Entries Value) : Except Fault Value := do
  let separator ← liftDefect (param params "separator" (.text "")).spelled
  let parts ← partsOf (param params "parts" (.list []))
  let texts ← liftDefect (parts.mapM Value.spelled)
  return .text (separator.intercalate texts)

/-- The leftmost match in a text of the pattern among the parameters, null if there is none. -/
def extractFrom (text : String) (params : Entries Value) : Except Fault Value :=
  match param params "pattern" (.text "") with
  | .text s =>
    match Pattern.ofString s with
    | .ok pattern =>
      match pattern.search text with
      | some found => .ok (.text found)
      | none => .ok .null
    | .error (.fault fault position) =>
      extract.refuse ("invalid pattern " ++ Text.quoted s ++ ": " ++ fault.message s position)
        (some "error")
    | .error .repetitionCount => .error (.defect .repetitionCount)
    | .error (.longNumeral digits) => .error (.defect (.longNumeral digits))
    | .error .twoCharacterSets => .error (.defect .characterSets)
  | .list _ => .error (.defect (.unhashable "list"))
  | .object _ => .error (.defect (.unhashable "dict"))
  | _ => .error (.defect .patternNeeded)

/-- The number of places among the parameters, zero by default. A value that is no integer is shown
in the words about it. -/
def placesOf (params : Entries Value) : Except Fault Int :=
  let v := param params "decimalPlaces" (.int 0)
  let refused (behind : String) :=
    if v.hasLongInteger then .error (.defect .longInteger)
    else round.refuse ("decimalPlaces " ++ v.literal ++ " is not an integer") (some behind)
  match v with
  | .bool b => .ok (if b then 1 else 0)
  | .int n => .ok n
  | .real x =>
    match x.truncate? with
    | some n => .ok n
    | none => if x.isNaN then refused "ValueError" else .error (.defect .infiniteInteger)
  | .text s =>
    match readInteger s with
    | .ok n => .ok n
    | .error _ => refused "ValueError"
  | _ => refused "TypeError"

/-- A number that has no decimal of the size to round to. -/
def unroundable : Except Fault Value :=
  round.refuse "[<class 'decimal.InvalidOperation'>]" (some "InvalidOperation")

/-- A number rounded to the multiple of `10 ^ exponent` nearest to it, halves away from zero, as an
integer if it is one. -/
def roundedTo (exponent : Int) (n : Number) : Except Fault Value :=
  let settle (d : Decimal) : Except Fault Value :=
    match d.quantize? exponent with
    | none => unroundable
    | some q =>
      match q.toInt? with
      | some i => .ok (.int i)
      | none => .ok (.real q.toReal)
  match n with
  | .int i => settle (Decimal.ofInt i)
  | .real x =>
    match Decimal.ofReal? x with
    | some d => settle d
    | none => if x.isNaN then .ok (.real x) else unroundable

/-- A value that reads as a number, rounded to the places among the parameters. The number is taken
from its text. A value that is no number is shown in the words about it. -/
def roundOf (v : Value) (params : Entries Value) : Except Fault Value :=
  match v.toNumber? with
  | none =>
    if v.hasLongInteger then .error (.defect .longInteger)
    else round.refuse ("value " ++ v.literal ++ " is not numeric") none
  | some n => do
    let places ← placesOf params
    if (Value.ofNumber n).hasLongInteger then .error (.defect .longInteger)
    else
      match placesExponent places with
      | .ok exponent => roundedTo exponent n
      | .error .invalid => unroundable
      | .error .overflow => .error (.defect .decimalOverflow)

/-- Applies a transform to a value. -/
def apply (t : Transform) (params : Entries Value) (context : Context) (v : Value) :
    Except Fault Value :=
  match t with
  | formatDate => formatDateOf v
  | calculate => calculateOf params context
  | concatenate => concatenateOf params
  | extract => (liftDefect v.spelled).bind fun text => extractFrom text params
  | uppercase => (liftDefect v.spelled).map fun text => .text (Text.upper text)
  | lowercase => (liftDefect v.spelled).map fun text => .text (Text.lower text)
  | trim => (liftDefect v.spelled).map fun text => .text (Text.strip text)
  | round => roundOf v params

/-- Applies the transform of a name, if there is one. -/
def applyNamed (name : String) (params : Entries Value) (context : Context) (v : Value) :
    Except Fault Value :=
  match ofName? name with
  | some t => t.apply params context v
  | none => .ok v

end Transform

/-- A step of a pipeline: the name of a transform and its parameters. -/
structure TransformStep where
  name : String
  params : Entries Value

/-- Applies the steps of a pipeline in order, each to the result of the one before. -/
def pipeline (steps : List TransformStep) (context : Context) (v : Value) : Except Fault Value :=
  steps.foldlM (fun acc s => Transform.applyNamed s.name s.params context acc) v

end Workgraph
