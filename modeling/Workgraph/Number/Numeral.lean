import Workgraph.Number.Shortest
import Workgraph.Text.Blank
import Workgraph.Text.Numeral
import Workgraph.Fault
/-!
# Numbers in texts

Reading integers and binary64 numbers. Decimal digits of every script count, a single underscore may
stand between two digits, and white space around the number is ignored.
-/

namespace Workgraph

/-- White space around a number: every blank beyond ASCII, and the ASCII controls and space. -/
def isNumberBlank (c : Char) : Bool :=
  if c.toNat < 127 then c = ' ' || (9 ≤ c.toNat && c.toNat ≤ 13) else Text.isBlank c

/-- The characters without white space around them. -/
def trimNumber (cs : List Char) : List Char :=
  ((cs.dropWhile isNumberBlank).reverse.dropWhile isNumberBlank).reverse

/-- Decimal digits of all scripts as ASCII digits; other characters stay. -/
def plainDigits (cs : List Char) : List Char :=
  cs.map fun c =>
    match Text.decimalValue? c with
    | some d => Char.ofNat (48 + d)
    | none => c

/-- Removes underscores that stand between two digits. Any other underscore makes the text no
number. -/
def dropUnderscores : List Char → Option (List Char)
  | [] => some []
  | a :: '_' :: b :: rest =>
    if a.isDigit && b.isDigit then (dropUnderscores (b :: rest)).map (a :: ·) else none
  | a :: rest => if a = '_' then none else (dropUnderscores rest).map (a :: ·)

/-- A sign, if there is one, and the rest. -/
def readSign : List Char → Bool × List Char
  | '-' :: rest => (true, rest)
  | '+' :: rest => (false, rest)
  | cs => (false, cs)

/-- The value of ASCII digits. -/
def decimalNat (cs : List Char) : Nat := cs.foldl (fun n c => 10 * n + (c.toNat - 48)) 0

/-- The most digits of an integer that are converted. -/
def maxNumeralDigits : Nat := 4300

/-- Whether an integer has more digits than are converted. -/
def isLongInteger (n : Int) : Bool := digitCount n.natAbs > maxNumeralDigits

/-- The integer that a text spells. -/
def readInteger (s : String) : Except Defect Int :=
  match dropUnderscores (plainDigits (trimNumber s.toList)) with
  | none => .error (.numeral s)
  | some cs =>
    let (negative, digits) := readSign cs
    if digits.isEmpty || !digits.all Char.isDigit then .error (.numeral s)
    else if digits.length > maxNumeralDigits then .error (.longNumeral digits.length)
    else .ok (if negative then -(decimalNat digits : Int) else decimalNat digits)

/-- A plain decimal: digits with an optional point, and an optional exponent. -/
def readDecimal? (cs : List Char) : Option (Nat × Int) :=
  let (whole, afterWhole) := cs.span Char.isDigit
  let (places, afterPlaces) := match afterWhole with
    | '.' :: r => r.span Char.isDigit
    | _ => ([], afterWhole)
  if whole.isEmpty && places.isEmpty then none
  else
    let digits := decimalNat (whole ++ places)
    match afterPlaces with
    | [] => some (digits, -(places.length : Int))
    | e :: r =>
      if e = 'e' || e = 'E' then
        let (minus, r') := readSign r
        if r'.isEmpty || !r'.all Char.isDigit then none
        else
          let n : Int := decimalNat r'
          some (digits, (if minus then -n else n) - places.length)
      else none

/-- The binary64 number nearest to the one that a text spells. -/
def readReal? (s : String) : Option Binary64 :=
  match dropUnderscores (plainDigits (trimNumber s.toList)) with
  | none => none
  | some cs =>
    let (negative, body) := readSign cs
    let word := String.ofList (body.map Char.toLower)
    if word = "inf" || word = "infinity" then some (.infinite negative)
    else if word = "nan" then some .nan
    else (readDecimal? body).map fun (digits, exponent) =>
      Binary64.ofDecimal negative digits exponent

end Workgraph
