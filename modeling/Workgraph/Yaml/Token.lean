import Workgraph.Text.Quoted
import Workgraph.Number.Shortest
import Workgraph.Fault
/-!
# Tokens of YAML

The tokens of which a YAML text consists, the places where they stand, and what can be wrong with a
text. A character past the end of a text reads as the character with number zero, which no text may
contain.
-/

namespace Workgraph.Yaml

/-- A place of a text, by line and column from zero. -/
structure Mark where
  line : Nat
  column : Nat
deriving DecidableEq, Repr

/-- What is wrong with a text. -/
inductive Misread where
  /-- A problem at a place, and what was being read since another place. -/
  | problem (context : Option String) (start : Option Mark) (words : String) (mark : Mark)
  /-- A character that no text may contain, at a position. -/
  | character (c : Char) (position : Nat)
  /-- An integer with more digits than are converted. -/
  | longNumeral (digits : Nat)
deriving DecidableEq, Repr

/-- A place of a named text. -/
def Mark.words (name : String) (m : Mark) : String :=
  "  in \"" ++ name ++ "\", line " ++ digitsText (m.line + 1) ++ ", column " ++
    digitsText (m.column + 1)

/-- The message about a misread text of a name. -/
def Misread.message (name : String) : Misread → String
  | .character c position =>
    "unacceptable character #x" ++ String.ofList (Text.hex 4 c.toNat) ++
      ": special characters are not allowed\n  in \"" ++ name ++ "\", position " ++
      digitsText position
  | .longNumeral digits => (Defect.longNumeral digits).message
  | .problem context start words mark =>
    let startLines := match start with
      | some m => if m = mark then [] else [m.words name]
      | none => []
    "\n".intercalate (context.toList ++ startLines ++ [words, mark.words name])

/-- The kinds of tokens. -/
inductive Symbol where
  | documentStart
  | documentEnd
  | blockSequence
  | blockMapping
  | blockEnd
  | openList
  | closeList
  | openMapping
  | closeMapping
  | entry
  | comma
  | key
  | value
  | scalar (plain : Bool) (text : String)
  | finish
deriving DecidableEq, Repr

/-- The name of a kind of token. -/
def Symbol.name : Symbol → String
  | .documentStart => "<document start>"
  | .documentEnd => "<document end>"
  | .blockSequence => "<block sequence start>"
  | .blockMapping => "<block mapping start>"
  | .blockEnd => "<block end>"
  | .openList => "["
  | .closeList => "]"
  | .openMapping => "\x7b"
  | .closeMapping => "\x7d"
  | .entry => "-"
  | .comma => ","
  | .key => "?"
  | .value => ":"
  | .scalar .. => "<scalar>"
  | .finish => "<stream end>"

/-- A token at a place. -/
structure Token where
  symbol : Symbol
  mark : Mark
deriving DecidableEq, Repr

/-! ## Cursors -/

/-- The rest of a text from a place on. -/
structure Cursor where
  rest : List Char
  line : Nat
  column : Nat
  index : Nat

/-- Whether a character ends a line. -/
def isBreak (c : Char) : Bool :=
  c = '\n' || c = '\r' || c.toNat = 0x85 || c.toNat = 0x2028 || c.toNat = 0x2029

/-- Whether a character ends a line or the text. -/
def isBreakOrEnd (c : Char) : Bool := isBreak c || c.toNat = 0

/-- Whether a character is a blank or ends a line or the text. -/
def isGap (c : Char) : Bool := c = ' ' || c = '\t' || isBreakOrEnd c

namespace Cursor

/-- The start of a text. -/
def start (cs : List Char) : Cursor := ⟨cs, 0, 0, 0⟩

/-- The place of a cursor. -/
def mark (c : Cursor) : Mark := ⟨c.line, c.column⟩

/-- The character so many places ahead. -/
def peek (c : Cursor) (n : Nat) : Char := c.rest.getD n (Char.ofNat 0)

/-- Goes on by one character. -/
def next (c : Cursor) : Cursor :=
  match c.rest with
  | [] => c
  | d :: rest =>
    if isBreak d && !(d = '\r' && rest.head? = some '\n') then ⟨rest, c.line + 1, 0, c.index + 1⟩
    else ⟨rest, c.line, if d.toNat = 0xFEFF then c.column else c.column + 1, c.index + 1⟩

/-- Goes on by so many characters. -/
def skip : Nat → Cursor → Cursor
  | 0, c => c
  | n + 1, c => skip n c.next

/-- The characters ahead while they are of a kind, and the cursor after them. -/
def takeWhile (kind : Char → Bool) (c : Cursor) : List Char × Cursor :=
  let taken := c.rest.takeWhile kind
  (taken, c.skip taken.length)

/-- Goes on past characters of a kind. -/
def skipWhile (kind : Char → Bool) (c : Cursor) : Cursor := (c.takeWhile kind).2

/-- The end of a line ahead, and the cursor after it. -/
def takeBreak? (c : Cursor) : Option (Char × Cursor) :=
  match c.rest with
  | '\r' :: '\n' :: _ => some ('\n', c.skip 2)
  | d :: _ =>
    if d = '\n' || d = '\r' || d.toNat = 0x85 then some ('\n', c.next)
    else if isBreak d then some (d, c.next)
    else none
  | [] => none

/-- Whether a line that separates documents lies ahead. -/
def atSeparator (c : Cursor) : Bool :=
  let three := c.rest.take 3
  (three = ['-', '-', '-'] || three = ['.', '.', '.']) && isGap (c.peek 3)

end Cursor

end Workgraph.Yaml
