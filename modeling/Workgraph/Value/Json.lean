import Workgraph.Number.Numeral
import Workgraph.Value.Literal
/-!
# JSON text of values

Writing values as JSON and reading them back. Writing keeps the order of fields; a layout fixes the
separators, the indentation and whether characters beyond ASCII are escaped. Reading accepts the
constants `NaN`, `Infinity` and `-Infinity`, keeps integers exact, and reports the place of the
first fault. There are two readers: one reads integers of any length (`Json.read`), and one refuses
those with more digits than are converted (`Json.decode`).
-/

namespace Workgraph

namespace Json

/-! ## Writing -/

/-- The decisions of a written form of JSON. -/
structure Style where
  itemSeparator : String
  fieldSeparator : String
  /-- Spaces per level, on lines of their own, or everything on one line. -/
  indent : Option Nat
  /-- Whether characters beyond ASCII are escaped. -/
  ascii : Bool

/-- Everything on one line without blanks. -/
def compact : Style := ⟨",", ":", none, true⟩

/-- Everything on one line, with a blank after each separator. -/
def spaced : Style := ⟨", ", ": ", none, true⟩

/-- Two spaces per level. -/
def indented : Style := ⟨",", ": ", some 2, true⟩

/-- Two spaces per level, with all printable characters as they are. -/
def indentedText : Style := ⟨",", ": ", some 2, false⟩

/-- Numbers look as they do in messages, with constants for the special values. -/
def numberLayout : Layout :=
  { Workgraph.numberLayout with nan := "NaN", infinity := "Infinity" }

/-- A 16-bit unit as an escape. -/
def unitEscape (n : Nat) : List Char := ['\\', 'u'] ++ Text.hex 4 n

/-- A character inside a JSON string. -/
def escapeChar (ascii : Bool) (c : Char) : List Char :=
  if c = '"' || c = '\\' then ['\\', c]
  else if c = '\n' then ['\\', 'n']
  else if c = '\r' then ['\\', 'r']
  else if c = '\t' then ['\\', 't']
  else if c.toNat = 12 then ['\\', 'f']
  else if c.toNat = 8 then ['\\', 'b']
  else if c.toNat < 32 then unitEscape c.toNat
  else if !ascii || c.toNat < 127 then [c]
  else if c.toNat < 0x10000 then unitEscape c.toNat
  else
    unitEscape (0xD800 + (c.toNat - 0x10000) / 0x400) ++
      unitEscape (0xDC00 + (c.toNat - 0x10000) % 0x400)

/-- A text as a JSON string. -/
def stringText (ascii : Bool) (s : String) : String :=
  String.ofList (['"'] ++ s.toList.flatMap (escapeChar ascii) ++ ['"'])

/-- Joins the parts of a list or object that stands at a level. -/
def Style.enclose (style : Style) (level : Nat) (left right : String) (parts : List String) :
    String :=
  if parts.isEmpty then left ++ right
  else
    match style.indent with
    | none => left ++ style.itemSeparator.intercalate parts ++ right
    | some width =>
      let line (n : Nat) := "\n" ++ String.ofList (List.replicate (n * width) ' ')
      left ++ line (level + 1) ++ (style.itemSeparator ++ line (level + 1)).intercalate parts ++
        line level ++ right

mutual

/-- A value as JSON at a level of nesting. -/
def writeAt (style : Style) (level : Nat) : Value → String
  | .null => "null"
  | .bool b => if b then "true" else "false"
  | .int n => intText n
  | .real x => numberLayout.render x
  | .text s => stringText style.ascii s
  | .list items => style.enclose level "[" "]" (writeItems style (level + 1) items)
  | .object fields => style.enclose level "\x7b" "\x7d" (writeFields style (level + 1) fields)

/-- The items of a list as JSON. -/
def writeItems (style : Style) (level : Nat) : List Value → List String
  | [] => []
  | v :: rest => writeAt style level v :: writeItems style level rest

/-- The fields of an object as JSON. -/
def writeFields (style : Style) (level : Nat) : List (String × Value) → List String
  | [] => []
  | (k, v) :: rest =>
    (stringText style.ascii k ++ style.fieldSeparator ++ writeAt style level v) ::
      writeFields style level rest

end

/-- A value as JSON. -/
def write (style : Style) (v : Value) : String := writeAt style 0 v

/-! ## Reading -/

/-- What is wrong with a JSON text. -/
inductive Fault where
  | value
  | propertyName
  | colon
  | comma
  | unterminated
  | controlCharacter
  | escape
  | unicodeEscape
  | extra
  | byteOrderMark
  /-- An integer with more digits than are converted. -/
  | longNumeral (digits : Nat)
deriving DecidableEq, Repr

/-- The words for a fault. -/
def Fault.words : Fault → String
  | .value => "Expecting value"
  | .propertyName => "Expecting property name enclosed in double quotes"
  | .colon => "Expecting ':' delimiter"
  | .comma => "Expecting ',' delimiter"
  | .unterminated => "Unterminated string starting at"
  | .controlCharacter => "Invalid control character at"
  | .escape => "Invalid \\escape"
  | .unicodeEscape => "Invalid \\uXXXX escape"
  | .extra => "Extra data"
  | .byteOrderMark => "Unexpected UTF-8 BOM (decode using utf-8-sig)"
  | .longNumeral digits => (Defect.longNumeral digits).message

/-- A fault and the number of characters that stand after its place. -/
structure Misread where
  fault : Fault
  remaining : Nat

/-- A fault at a place of a text. -/
structure ReadError where
  fault : Fault
  position : Nat

/-- The line and column of a place, both from one. -/
def lineColumn (cs : List Char) (position : Nat) : Nat × Nat :=
  let before := cs.take position
  (before.count '\n' + 1, (before.reverse.takeWhile (· ≠ '\n')).length + 1)

/-- The message for a fault in a text. The words about a long integer do not say where it stands. -/
def ReadError.message (s : String) (e : ReadError) : String :=
  match e.fault with
  | .longNumeral _ => e.fault.words
  | _ =>
    let (line, column) := lineColumn s.toList e.position
    e.fault.words ++ ": line " ++ digitsText line ++ " column " ++ digitsText column ++ " (char " ++
      digitsText e.position ++ ")"

/-- Drops the white space of JSON. -/
def skip (cs : List Char) : List Char :=
  cs.dropWhile fun c => c = ' ' || c = '\t' || c = '\n' || c = '\r'

/-- The value of a base-sixteen digit. -/
def hexValue? (c : Char) : Option Nat :=
  if '0' ≤ c ∧ c ≤ '9' then some (c.toNat - 48)
  else if 'a' ≤ c ∧ c ≤ 'f' then some (c.toNat - 87)
  else if 'A' ≤ c ∧ c ≤ 'F' then some (c.toNat - 55)
  else none

/-- The value of base-sixteen digits, most significant first. -/
def hexNat? (cs : List Char) : Option Nat :=
  cs.foldl (fun acc c => acc.bind fun n => (hexValue? c).map (16 * n + ·)) (some 0)

/-- Four base-sixteen digits that do not end the text, as a number, and the characters after them.
`escape` is the text from the backslash on. -/
def readUnit (escape : List Char) : Except Misread (Nat × List Char) :=
  let digits := escape.drop 2
  if digits.length ≤ 4 then .error ⟨.unicodeEscape, digits.length + 1⟩
  else
    match hexNat? (digits.take 4) with
    | some n => .ok (n, digits.drop 4)
    | none => .error ⟨.unicodeEscape, digits.length + 1⟩

/-- The character that a letter stands for after a backslash. -/
def unescape? : Char → Option Char
  | '"' => some '"'
  | '\\' => some '\\'
  | '/' => some '/'
  | 'b' => some (Char.ofNat 8)
  | 'f' => some (Char.ofNat 12)
  | 'n' => some '\n'
  | 'r' => some '\r'
  | 't' => some '\t'
  | _ => none

/-- The characters of a string up to its closing quote, and the rest. `start` counts the characters
from the opening quote on. A lone surrogate becomes the replacement character. -/
def readString (start : Nat) : Nat → List Char → List Char → Except Misread (String × List Char)
  | 0, _, _ => .error ⟨.unterminated, start⟩
  | _ + 1, _, [] => .error ⟨.unterminated, start⟩
  | fuel + 1, acc, c :: rest =>
    if c = '"' then .ok (String.ofList acc.reverse, rest)
    else if c = '\\' then
      match rest with
      | [] => .error ⟨.unterminated, start⟩
      | 'u' :: _ =>
        match readUnit (c :: rest) with
        | .error e => .error e
        | .ok (high, after) =>
          if 0xD800 ≤ high ∧ high < 0xDC00 then
            match after with
            | '\\' :: 'u' :: _ =>
              if after.length ≤ 6 then readString start fuel (Char.ofNat 0xFFFD :: acc) after
              else
                match readUnit after with
                | .error e => .error e
                | .ok (low, after') =>
                  if 0xDC00 ≤ low ∧ low < 0xE000 then
                    let joined := 0x10000 + (high - 0xD800) * 0x400 + (low - 0xDC00)
                    readString start fuel (Char.ofNat joined :: acc) after'
                  else readString start fuel (Char.ofNat 0xFFFD :: acc) after
            | _ => readString start fuel (Char.ofNat 0xFFFD :: acc) after
          else if 0xDC00 ≤ high ∧ high < 0xE000 then
            readString start fuel (Char.ofNat 0xFFFD :: acc) after
          else readString start fuel (Char.ofNat high :: acc) after
      | e :: after =>
        match unescape? e with
        | some d => readString start fuel (d :: acc) after
        | none => .error ⟨.escape, rest.length + 1⟩
    else if c.toNat < 32 then .error ⟨.controlCharacter, rest.length + 1⟩
    else readString start fuel (c :: acc) rest

/-- The value of decimal digits, most significant first. -/
def digitsValue (cs : List Char) : Nat := cs.foldl (fun n c => 10 * n + (c.toNat - 48)) 0

/-- The ASCII digits at the start, and the rest. -/
def spanDigits (cs : List Char) : List Char × List Char :=
  cs.span fun c => '0' ≤ c && c ≤ '9'

/-- A minus sign, if there is one, and the rest. -/
def readMinus : List Char → Bool × List Char
  | '-' :: rest => (true, rest)
  | cs => (false, cs)

/-- The digits of the integer part, and the rest. After a zero there are no more. -/
def readWhole : List Char → List Char × List Char
  | '0' :: rest => (['0'], rest)
  | cs => spanDigits cs

/-- The digits after a point, if there are any, and the rest. -/
def readPlaces : List Char → List Char × List Char
  | '.' :: rest => if (spanDigits rest).1.isEmpty then ([], '.' :: rest) else spanDigits rest
  | cs => ([], cs)

/-- A plus or minus sign, if there is one, and the rest. -/
def readSign : List Char → Bool × List Char
  | '+' :: rest => (false, rest)
  | cs => readMinus cs

/-- An exponent, if there is one, and the rest. -/
def readExponent : List Char → Option Int × List Char
  | [] => (none, [])
  | e :: rest =>
    let (minus, digits) := readSign rest
    let (ds, after) := spanDigits digits
    if (e = 'e' || e = 'E') && !ds.isEmpty then
      (some (if minus then -(digitsValue ds : Int) else digitsValue ds), after)
    else (none, e :: rest)

/-- A number and the rest, if the text starts with one. Without fraction and exponent it is an
integer. -/
def readNumber? (cs : List Char) : Option (Value × List Char) :=
  let (negative, body) := readMinus cs
  let (whole, afterWhole) := readWhole body
  let (places, afterPlaces) := readPlaces afterWhole
  let (exponent?, rest) := readExponent afterPlaces
  if whole.isEmpty then none
  else if places.isEmpty && exponent?.isNone then
    some (.int (if negative then -(digitsValue whole : Int) else digitsValue whole), rest)
  else
    some (.real (Binary64.ofDecimal negative (digitsValue (whole ++ places))
      (exponent?.getD 0 - places.length)), rest)

/-- The rest after a word, if the text starts with it. -/
def dropWord? (word : String) (cs : List Char) : Option (List Char) :=
  if word.toList.isPrefixOf cs then some (cs.drop word.length) else none

/-- A constant and the rest, if the text starts with one. -/
def readConstant? (cs : List Char) : Option (Value × List Char) :=
  [("null", Value.null), ("true", .bool true), ("false", .bool false), ("NaN", .real .nan),
    ("Infinity", .real (.infinite false)), ("-Infinity", .real (.infinite true))].findSome?
    fun (word, v) => (dropWord? word cs).map fun rest => (v, rest)

/-- A number and the rest. If integers are limited, one with more digits than are converted is
refused. -/
def readNumber (limited : Bool) (cs : List Char) : Except Misread (Value × List Char) :=
  match readNumber? cs with
  | some (.int n, rest) =>
    if limited && isLongInteger n then .error ⟨.longNumeral (digitCount n.natAbs), cs.length⟩
    else .ok (.int n, rest)
  | some found => .ok found
  | none => .error ⟨.value, cs.length⟩

mutual

/-- A value at the start of a text, and the rest. -/
def readValue (limited : Bool) : Nat → List Char → Except Misread (Value × List Char)
  | 0, cs => .error ⟨.value, cs.length⟩
  | fuel + 1, cs =>
    match cs with
    | '"' :: rest => do
      let (s, rest) ← readString cs.length (rest.length + 1) [] rest
      return (.text s, rest)
    | '\x7b' :: rest =>
      match skip rest with
      | '\x7d' :: rest => .ok (.object [], rest)
      | rest => readFields limited fuel [] rest
    | '[' :: rest =>
      match skip rest with
      | ']' :: rest => .ok (.list [], rest)
      | rest => readItems limited fuel [] rest
    | _ =>
      match readConstant? cs with
      | some found => .ok found
      | none => readNumber limited cs

/-- The items of a list after those already read, which are kept last first. -/
def readItems (limited : Bool) :
    Nat → List Value → List Char → Except Misread (Value × List Char)
  | 0, _, cs => .error ⟨.value, cs.length⟩
  | fuel + 1, acc, cs => do
    let (v, rest) ← readValue limited fuel cs
    match skip rest with
    | ']' :: rest => return (.list (v :: acc).reverse, rest)
    | ',' :: rest => readItems limited fuel (v :: acc) (skip rest)
    | rest => throw ⟨.comma, rest.length⟩

/-- The fields of an object after those already read. -/
def readFields (limited : Bool) :
    Nat → Entries Value → List Char → Except Misread (Value × List Char)
  | 0, _, cs => .error ⟨.value, cs.length⟩
  | fuel + 1, acc, cs =>
    match cs with
    | '"' :: rest => do
      let (k, rest) ← readString cs.length (rest.length + 1) [] rest
      match skip rest with
      | ':' :: rest =>
        let (v, rest) ← readValue limited fuel (skip rest)
        match skip rest with
        | '\x7d' :: rest => return (.object (acc.set k v), rest)
        | ',' :: rest => readFields limited fuel (acc.set k v) (skip rest)
        | rest => throw ⟨.comma, rest.length⟩
      | rest => throw ⟨.colon, rest.length⟩
    | _ => .error ⟨.propertyName, cs.length⟩

end

/-- A text without the byte order mark that it may begin with. -/
def withoutMark (s : String) : String :=
  match s.toList with
  | c :: rest => if c.toNat = 0xFEFF then String.ofList rest else s
  | [] => s

/-- The value of a JSON text, with limited integers or with all of them. -/
def readText (limited : Bool) (s : String) : Except ReadError Value :=
  let cs := s.toList
  let place (e : Misread) : ReadError := ⟨e.fault, cs.length - e.remaining⟩
  if cs.head? = some (Char.ofNat 0xFEFF) then .error ⟨.byteOrderMark, 0⟩
  else
    match readValue limited (2 * cs.length + 2) (skip cs) with
    | .error e => .error (place e)
    | .ok (v, rest) =>
      match skip rest with
      | [] => .ok v
      | rest => .error (place ⟨.extra, rest.length⟩)

/-- The value of a JSON text. -/
def read (s : String) : Except ReadError Value := readText false s

/-- The value of a JSON text, unless an integer in it has more digits than are converted. -/
def decode (s : String) : Except ReadError Value := readText true s

end Json

end Workgraph
