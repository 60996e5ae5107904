import Workgraph.Number.Numeral
import Workgraph.Value.Literal
/-!
# Plain scalars as values

What a scalar without quotes stands for: nothing, a boolean, an integer in one of several bases, a
number with a point, or its own text.
-/

namespace Workgraph.Yaml

/-- The words for nothing. -/
def nullWords : List String := ["", "~", "null", "Null", "NULL"]

/-- The words for true. -/
def trueWords : List String :=
  ["yes", "Yes", "YES", "true", "True", "TRUE", "on", "On", "ON"]

/-- The words for false. -/
def falseWords : List String :=
  ["no", "No", "NO", "false", "False", "FALSE", "off", "Off", "OFF"]

/-- The words for an infinite number. -/
def infinityWords : List String := [".inf", ".Inf", ".INF"]

/-- The words for not-a-number. -/
def nanWords : List String := [".nan", ".NaN", ".NAN"]

/-- Whether characters are some of a kind, with underscores among them. -/
def allOf (kind : Char → Bool) (cs : List Char) : Bool :=
  !cs.isEmpty && cs.all fun c => kind c || c = '_'

/-- The natural that digits of a base spell. Underscores do not count. -/
def naturalOf (base : Nat) (cs : List Char) : Nat :=
  let value (c : Char) : Nat :=
    if c.isDigit then c.toNat - 48
    else if 'a' ≤ c then c.toNat - 87 else c.toNat - 55
  (cs.filter (· ≠ '_')).foldl (fun n c => base * n + value c) 0

/-- A text without its sign. -/
def cutSign : List Char → Bool × List Char
  | '-' :: rest => (true, rest)
  | '+' :: rest => (false, rest)
  | cs => (false, cs)

/-- Whether a digit of base ten that is followed by such digits and underscores begins a text. -/
def isDecimal : List Char → Bool
  | c :: rest => c.isDigit && rest.all fun d => d.isDigit || d = '_'
  | [] => false

/-- Whether a text is one or two digits for minutes or seconds. -/
def isSixtieth : List Char → Bool
  | [c] => c.isDigit
  | [c, d] => '0' ≤ c && c ≤ '5' && d.isDigit
  | _ => false

/-- The number of a base of sixty. -/
def sexagesimal (parts : List (List Char)) : Nat :=
  parts.foldl (fun n p => 60 * n + naturalOf 10 p) 0

/-- The parts of a text between colons. -/
def colonParts (cs : List Char) : List (List Char) :=
  ((String.ofList cs).splitOn ":").map String.toList

/-- The natural that a text without a sign spells. -/
def plainNatural? (cs : List Char) : Option Nat :=
  match cs with
  | ['0'] => some 0
  | '0' :: 'b' :: rest =>
    if allOf (fun c => c = '0' || c = '1') rest then some (naturalOf 2 rest) else none
  | '0' :: 'x' :: rest =>
    if allOf (fun c => c.isDigit || ('a' ≤ c && c ≤ 'f') || ('A' ≤ c && c ≤ 'F')) rest then
      some (naturalOf 16 rest)
    else none
  | '0' :: rest =>
    if allOf (fun c => '0' ≤ c && c ≤ '7') rest then some (naturalOf 8 rest) else none
  | _ =>
    match colonParts cs with
    | [all] => if isDecimal all then some (naturalOf 10 all) else none
    | first :: others =>
      if isDecimal first && others.all isSixtieth then some (sexagesimal (first :: others))
      else none
    | [] => none

/-- The number of digits of a text that spells an integer of base ten or sixty, if it is more than are
converted. Of the parts of a number of base sixty only the first can have so many. -/
def longDigits? (s : String) : Option Nat :=
  let (_, cs) := cutSign s.toList
  match cs, colonParts cs with
  | '0' :: _, _ => none
  | _, first :: others =>
    let digits := (first.filter (· ≠ '_')).length
    if isDecimal first && others.all isSixtieth && digits > maxNumeralDigits then some digits
    else none
  | _, [] => none

/-- Whether a text is an exponent with its sign, or nothing. -/
def isExponent : List Char → Bool
  | [] => true
  | e :: sign :: digits =>
    (e = 'e' || e = 'E') && (sign = '-' || sign = '+') && !digits.isEmpty &&
      digits.all Char.isDigit
  | _ => false

/-- The number with a point that a text spells. -/
def plainReal? (s : String) : Option Binary64 :=
  let (negative, cs) := cutSign s.toList
  let whole := cs.takeWhile (· ≠ '.')
  let isPlace (c : Char) : Bool := c.isDigit || c = '_'
  match cs.dropWhile (· ≠ '.') with
  | [] => none
  | _ :: rest =>
    let places := rest.takeWhile isPlace
    let exponent := rest.dropWhile isPlace
    let read (cs : List Char) : Option Binary64 :=
      readReal? (String.ofList (cs.filter (· ≠ '_')))
    if infinityWords.contains (String.ofList cs) then some (.infinite negative)
    else if nanWords.contains s then some .nan
    else if isDecimal whole && isExponent exponent then read s.toList
    else if whole.isEmpty && s.toList.head? = some '.' && isDecimal places && isExponent exponent
    then read s.toList
    else
      match colonParts whole with
      | first :: others@(_ :: _) =>
        if isDecimal first && others.all isSixtieth && exponent.isEmpty then
          let last := (others.getLast?.getD []) ++ '.' :: places
          let high := Binary64.ofInt (60 * sexagesimal (first :: others.dropLast))
          (read ('0' :: last)).map fun low =>
            if negative then (Binary64.add low high).neg else Binary64.add low high
        else none
      | _ => none

/-- The value of a scalar without quotes. -/
def plainValue (s : String) : Value :=
  if nullWords.contains s then .null
  else if trueWords.contains s then .bool true
  else if falseWords.contains s then .bool false
  else
    let (negative, cs) := cutSign s.toList
    match plainNatural? cs, plainReal? s with
    | some n, _ => .int (if negative then -(n : Int) else n)
    | none, some x => .real x
    | none, none => .text s

end Workgraph.Yaml
