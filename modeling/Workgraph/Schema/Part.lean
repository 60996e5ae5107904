import Workgraph.Number.Numeral
import Workgraph.Number.Word
import Workgraph.Schema.Fit
import Workgraph.Text.Blank
import Workgraph.Value.Basic
/-!
# Declared types

Texts, numbers, booleans, lists, dictionaries and records. Numbers may also be given as texts or
booleans, and integers as integral numbers with a point.
-/

namespace Workgraph.Schema

variable {α : Type}

/-- Whether a character counts as blank around a numeral. The separators of records do not. -/
def isMargin (c : Char) : Bool := Text.isBlank c && !(0x1C ≤ c.toNat && c.toNat ≤ 0x1F)

/-- A numeral without the blanks around it. -/
def trimMargins (cs : List Char) : List Char :=
  ((cs.dropWhile isMargin).reverse.dropWhile isMargin).reverse

/-- Digits without underscores, which may stand one by one between other characters. -/
def joinGroups? (cs : List Char) : Option (List Char) :=
  let doubled := (cs.zip (cs.drop 1)).any fun p => p.1 = '_' && p.2 = '_'
  if cs.head? = some '_' || cs.getLast? = some '_' || doubled then none
  else some (cs.filter (· ≠ '_'))

/-- The integer that a text spells: a sign, digits, and perhaps a point and zeros. -/
def integerText? (cs : List Char) : Option Int := do
  let whole := cs.takeWhile (· ≠ '.')
  guard ((cs.drop (whole.length + 1)).all (· = '0'))
  let (negative, digits) := readSign whole
  let digits ← joinGroups? digits
  guard (!digits.isEmpty && digits.all Char.isDigit)
  let n : Int := decimalNat digits
  return if negative then -n else n

/-- The most characters of a numeral. -/
def maxNumeralLength : Nat := 4300

/-- An integer. -/
def integer : Value → Fit Int
  | .bool b => .fits (if b then 1 else 0)
  | .int n => .fits n
  | .real x =>
    match x.truncate? with
    | none => .refuse .notFinite
    | some n =>
      if !x.isInteger then .refuse .integerFraction
      else if n.natAbs < wordHalf then .fits n
      else .refuse .integerSize
  | .text s =>
    let cs := trimMargins s.toList
    if cs.length > maxNumeralLength then .refuse .integerSize
    else match integerText? cs with
      | some n => .fits n
      | none => .refuse .integerText
  | _ => .refuse .notInteger

/-- The binary64 number that a text spells. -/
def realText? (s : String) : Option Binary64 := do
  let cs := trimMargins s.toList
  let joined ← joinGroups? cs
  guard (joined.all fun c => c.toNat < 128 && !isMargin c)
  readReal? (String.ofList joined)

/-- A binary64 number. -/
def real : Value → Fit Binary64
  | .bool b => .fits (Binary64.ofInt (if b then 1 else 0))
  | .int n => .ofOption .notNumber (Binary64.ofInt? n)
  | .real x => .fits x
  | .text s => .ofOption .numberText (realText? s)
  | _ => .refuse .notNumber

/-- An integer that is not below a bound. -/
def integerFrom (bound : Nat) (v : Value) : Fit Int :=
  (integer v).check fun n => if n < bound then .refuse (.below bound) else .fits n

/-- An integer above a bound. -/
def integerAbove (bound : Nat) (v : Value) : Fit Int :=
  (integer v).check fun n => if n ≤ bound then .refuse (.notAbove bound) else .fits n

/-- Whether a number is above, or not below, a bound. Not-a-number is neither. -/
def reaches (bound : Nat) (orEqual : Bool) (x : Binary64) : Bool :=
  match x.compareInt? bound with
  | some .gt => true
  | some .eq => orEqual
  | _ => false

/-- A binary64 number that is not below a bound. -/
def realFrom (bound : Nat) (v : Value) : Fit Binary64 :=
  (real v).check fun x => if reaches bound true x then .fits x else .refuse (.below bound)

/-- A binary64 number above a bound. -/
def realAbove (bound : Nat) (v : Value) : Fit Binary64 :=
  (real v).check fun x => if reaches bound false x then .fits x else .refuse (.notAbove bound)

/-- The words that stand for a boolean. -/
def booleanWord? (s : String) : Option Bool :=
  let word := String.ofList (s.toList.map Char.toLower)
  if ["0", "off", "f", "false", "n", "no"].contains word then some false
  else if ["1", "on", "t", "true", "y", "yes"].contains word then some true
  else none

/-- The boolean that an integer stands for. -/
def booleanInteger (n : Int) : Fit Bool :=
  if n = 0 then .fits false else if n = 1 then .fits true else .refuse .booleanValue

/-- A boolean. -/
def boolean : Value → Fit Bool
  | .bool b => .fits b
  | .int n =>
    if isWord n then booleanInteger n else .refuse .notBoolean
  | .real x =>
    match x.truncate? with
    | some n =>
      if x.isInteger && n.natAbs < wordHalf then booleanInteger n else .refuse .notBoolean
    | none => .refuse .notBoolean
  | .text s =>
    match booleanWord? s with
    | some b => .fits b
    | none => .refuse .booleanValue
  | _ => .refuse .notBoolean

/-- A text. -/
def text : Value → Fit String
  | .text s => .fits s
  | _ => .refuse .notText

/-- A text with at least one character. -/
def someText (v : Value) : Fit String :=
  (text v).check fun s => if s = "" then .refuse .emptyText else .fits s

/-- Any value. -/
def any (v : Value) : Fit Value := .fits v

/-- A part that may be null. -/
def nullable (part : Value → Fit α) : Value → Fit (Option α)
  | .null => .fits none
  | v => (part v).map some

/-- One of several names. -/
def among (names : List String) (ofName? : String → Option α) (v : Value) : Fit α :=
  let chosen := match v with
    | .text s => ofName? s
    | _ => none
  match chosen with
  | some a => .fits a
  | none => .refuse (.notAmong names)

/-- The items of a list from an index on. -/
def itemsFrom (part : Value → Fit α) (index : Nat) : List Value → Fit (List α)
  | [] => .fits []
  | v :: rest => List.cons <$> (part v).within (.item index) <*> itemsFrom part (index + 1) rest

/-- A list. -/
def list (part : Value → Fit α) : Value → Fit (List α)
  | .list items => itemsFrom part 0 items
  | _ => .refuse .notList

/-- The values of a dictionary. -/
def entriesOf (part : Value → Fit α) : Entries Value → Fit (Entries α)
  | [] => .fits []
  | (k, v) :: rest =>
    List.cons <$> (Prod.mk k <$> (part v).within (.field k)) <*> entriesOf part rest

/-- A dictionary. -/
def dictionary (part : Value → Fit α) : Value → Fit (Entries α)
  | .object fields => entriesOf part fields
  | _ => .refuse .notDictionary

/-- A record of a declared type. -/
def record (name : String) (parts : Entries Value → Fit α) : Value → Fit α
  | .object fields => parts fields
  | _ => .refuse (.notRecord name)

/-- A field of a record under its wire name, or under another name that it goes by. -/
def fieldOr (missing : Fit α) (wire other : String) (part : Value → Fit α)
    (fields : Entries Value) : Fit α :=
  match fields.get? wire, fields.get? other with
  | some v, _ => (part v).within (.field wire)
  | none, some v => (part v).within (.field other)
  | none, none => missing

/-- A field with a default. -/
def optionalField (default : α) (wire other : String) (part : Value → Fit α)
    (fields : Entries Value) : Fit α :=
  fieldOr (.fits default) wire other part fields

/-- A field that must be there. -/
def requiredField (wire other : String) (part : Value → Fit α) (fields : Entries Value) : Fit α :=
  fieldOr ((Fit.refuse .missing).within (.field wire)) wire other part fields

/-- A field that may be missing or null. -/
def nullableField (wire other : String) (part : Value → Fit α) (fields : Entries Value) :
    Fit (Option α) :=
  optionalField none wire other (nullable part) fields

end Workgraph.Schema
