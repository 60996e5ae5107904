import Workgraph.Value.Document
/-!
# Texts and numbers of values

How a value reads as text, and which values read as numbers.
-/

namespace Workgraph.Value

/-- A value as text: null is empty, integral numbers have no point, lists and objects are compact
JSON. -/
def toText : Value → String
  | .null => ""
  | .bool b => if b then "true" else "false"
  | .int n => intText n
  | .real x =>
    if x.isInteger then
      match x.truncate? with
      | some n => intText n
      | none => realText x
    else realText x
  | .text s => s
  | v => Json.write Json.compact v

/-- A value as text, if the integers in it can be written. -/
def spelled (v : Value) : Except Defect String :=
  if v.hasLongInteger then .error .longInteger else .ok v.toText

/-- A text as a number: blank is zero, and an integral number without a point is an integer. -/
def textNumber? (s : String) : Option Number :=
  let trimmed := Text.strip s
  if trimmed = "" then some (.int 0)
  else
    match readReal? trimmed with
    | none => none
    | some x =>
      if x.isNaN then none
      else if x.isInteger && !trimmed.toList.contains '.' then x.truncate?.map .int
      else some (.real x)

/-- A boolean, a number, or a text that spells one, as a number. -/
def toNumber? : Value → Option Number
  | .text s => textNumber? s
  | v => v.number?

end Workgraph.Value
