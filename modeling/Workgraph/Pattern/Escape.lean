import Workgraph.Number.Numeral
import Workgraph.Pattern.Reading
/-!
# Escapes, character sets and repetitions

The parts of a pattern that hold no other parts.
-/

namespace Workgraph.Pattern

open Reader

/-! ## Escapes -/

/-- A hexadecimal digit. -/
def isHex (c : Char) : Bool := c.isDigit || 'a' ≤ c && c ≤ 'f' || 'A' ≤ c && c ≤ 'F'

/-- An octal digit. -/
def isOctal (c : Char) : Bool := '0' ≤ c && c ≤ '7'

/-- The value of a hexadecimal digit. -/
def hexDigit (c : Char) : Nat :=
  if c.isDigit then c.toNat - 48
  else if 'a' ≤ c && c ≤ 'f' then c.toNat - 87
  else c.toNat - 55

/-- The number that digits spell in a base. -/
def numeral (base : Nat) (cs : List Char) : Nat := cs.foldl (fun n c => base * n + hexDigit c) 0

/-- The control character of an escape. -/
def control? : Char → Option Nat
  | 'a' => some 7
  | 'b' => some 8
  | 'f' => some 12
  | 'n' => some 10
  | 'r' => some 13
  | 't' => some 9
  | 'v' => some 11
  | '\\' => some 92
  | _ => none

/-- The class of an escape, and whether it is turned round. -/
def category? : Char → Option (Category × Bool)
  | 'd' => some (.digit, false)
  | 'D' => some (.digit, true)
  | 's' => some (.space, false)
  | 'S' => some (.space, true)
  | 'w' => some (.word, false)
  | 'W' => some (.word, true)
  | _ => none

/-- The place of an escape. -/
def anchor? : Char → Option Anchor
  | 'A' => some .textStart
  | 'b' => some .wordEdge
  | 'B' => some .notWordEdge
  | 'Z' => some .textStop
  | _ => none

/-- The text of an escape: the backslash, its character and the digits that follow. -/
def escapeText (e : Char) (digits : List Char) : String := String.ofList ('\\' :: e :: digits)

/-- A character by its code in so many hexadecimal digits. -/
def hexEscape (e : Char) (count : Nat) : Reader Nat := do
  let digits ← acceptWhile isHex count
  if digits.length < count then
    failBack (.incompleteEscape (escapeText e digits)) (digits.length + 2)
  let code := numeral 16 digits
  if code > 0x10FFFF then failBack (.badEscape (escapeText e digits)) (digits.length + 2)
  return code

/-- A character by its name: no name is known. -/
def namedEscape : Reader Nat := do
  if !(← accept '\x7b') then fail (.missing "\x7b")
  let n ← name '\x7d' "character name"
  failBack (.unknownCharacter n) (n.length + 4)

/-- The escapes that mean the same everywhere: codes, names and characters for themselves. -/
def plainEscape (e : Char) : Reader Nat := do
  match e with
  | 'x' => hexEscape e 2
  | 'u' => hexEscape e 4
  | 'U' => hexEscape e 8
  | 'N' => namedEscape
  | _ =>
    if e.isAlphanum then failBack (.badEscape (escapeText e [])) 2
    return e.toNat

/-- A character by its code in octal digits, of which the first is read. -/
def octalEscape (e : Char) (digits : List Char) : Reader Nat := do
  let code := numeral 8 (e :: digits)
  if code > 0o377 then failBack (.octalRange (escapeText e digits)) (digits.length + 2)
  return code

/-- An escape inside a character set. -/
def setEscape (e : Char) : Reader Member := do
  match control? e, category? e with
  | some code, _ => return .one code
  | none, some (category, negated) => return .category category negated
  | none, none =>
    if isOctal e then return .one (← octalEscape e (← acceptWhile isOctal 2))
    else return .one (← plainEscape e)

/-- A reference to a group by its number, written in so many digits. -/
def numberedReference (group digits : Nat) : Reader Item := do
  if group ≤ (← get).widths.length then
    if !(← isClosed group) then failBack .openGroup (digits + 1)
    checkBehind group
    return .reference group
  failBack (.invalidGroup group) digits

/-- An escape that starts with a digit other than zero: three octal digits are a character, all
else refers to a group. -/
def digitEscape (e : Char) : Reader Item := do
  match ← acceptWhile Char.isDigit 1 with
  | [] => numberedReference (numeral 10 [e]) 1
  | second =>
    if isOctal e && second.all isOctal then
      match ← acceptWhile isOctal 1 with
      | [] => numberedReference (numeral 10 (e :: second)) 2
      | third => return .char (← octalEscape e (second ++ third))
    else numberedReference (numeral 10 (e :: second)) 2

/-- An escape outside of character sets. -/
def escape (e : Char) : Reader Item := do
  match anchor? e, category? e, control? e with
  | some place, _, _ => return .anchor place
  | none, some (category, negated), _ => return .set false [.category category negated]
  | none, none, some code => return .char code
  | none, none, none =>
    if e = '0' then return .char (numeral 8 (← acceptWhile isOctal 2))
    else if e.isDigit then digitEscape e
    else return .char (← plainEscape e)

/-! ## Character sets -/

/-- A member of a set, from its first lexeme. -/
def setMember (l : Lexeme) : Reader Member := do
  match l.escaped with
  | some e => setEscape e
  | none => return .one l.char.toNat

/-- The members of a set that started at a position, after those already read. -/
def setMembers (start : Nat) : Nat → List Member → Reader (List Member)
  | 0, read => return read
  | n + 1, read => do
    match ← next with
    | none => throw (.fault .unterminatedSet (some start))
    | some this =>
      if this.is ']' && !read.isEmpty then return read
      let low ← setMember this
      if ← accept '-' then
        match ← next with
        | none => throw (.fault .unterminatedSet (some start))
        | some that =>
          if that.is ']' then return read ++ [low, .one '-'.toNat]
          let high ← setMember that
          let back := this.chars.length + 1 + that.chars.length
          let fault := Fault.badRange (String.ofList this.chars) (String.ofList that.chars)
          match low, high with
          | .one a, .one b =>
            if b < a then failBack fault back
            setMembers start n (read ++ [.range a b])
          | _, _ => failBack fault back
      else setMembers start n (read ++ [low])

/-- A character set, after its opening bracket. -/
def characterSet : Reader Item := do
  let start := (← tell) - 1
  let negated ← accept '^'
  let members := (← setMembers start ((← get).rest.length + 1) []).eraseDups
  return match members with
    | [.one c] => if negated then .notChar c else .char c
    | _ => .set negated members

/-! ## Repetitions -/

/-- The counts of a repetition. -/
structure Counts where
  least : Nat
  most : Option Nat

/-- The greatest count, exclusive. -/
def maxCount : Nat := Nat.pow 2 32 - 1

/-- A count within the limit. -/
def readCount (digits : List Char) (default : Option Nat) : Reader (Option Nat) := do
  if digits.isEmpty then return default
  if digits.length > maxNumeralDigits then throw (.longNumeral digits.length)
  let n := numeral 10 digits
  if n ≥ maxCount then throw .repetitionCount
  return some n

/-- The counts between braces, after the opening one; none if the brace stands for itself. -/
def braceCounts : Reader (Option Counts) := do
  let here := (← get).rest
  let position ← tell
  if (← peek).any (·.is '\x7d') then return none
  let low ← acceptWhile Char.isDigit here.length
  let high ← if ← accept ',' then acceptWhile Char.isDigit here.length else pure low
  if !(← accept '\x7d') then
    seek here
    return none
  let least ← readCount low (some 0)
  let most ← readCount high none
  if most.any (· < least.getD 0) then throw (.fault .repeatOrder (some position))
  return some ⟨least.getD 0, most⟩

/-- The counts of a repetition from its first character; none for a brace that stands for itself. -/
def counts (c : Char) : Reader (Option Counts) := do
  match c with
  | '?' => return some ⟨0, some 1⟩
  | '*' => return some ⟨0, none⟩
  | '+' => return some ⟨1, none⟩
  | _ => braceCounts

/-- Whether the item is a group without a number or options. -/
def Item.plainBody? : Item → Option (List Item)
  | .group none added removed body =>
    if added = Options.none ∧ removed = Options.none then some body else none
  | _ => none

/-- How a repetition chooses its count, from what follows it. -/
def greed : Reader Greed := do
  if ← accept '?' then return .lazy
  if ← accept '+' then return .possessive
  return .greedy

/-- Repeats the last item read. The position is that of the repetition. -/
def repeatLast (c : Counts) (position : Nat) : List Item → Reader (List Item)
  | [] | .anchor _ :: _ => throw (.fault .nothingToRepeat (some position))
  | .repetition .. :: _ => throw (.fault .multipleRepeat (some position))
  | item :: read => do
    let body := item.plainBody?.getD [item]
    return .repetition (← greed) c.least c.most body :: read

end Workgraph.Pattern
