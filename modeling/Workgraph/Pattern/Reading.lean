import Workgraph.Pattern.Fault
import Workgraph.Pattern.Syntax
/-!
# The reading of a pattern

The text of a pattern is cut into characters and pairs of a backslash and
the character after it; one of these is always read ahead, so a backslash at the very end is
noticed as soon as the reading comes next to it.
-/

namespace Workgraph.Pattern

/-- A character of a pattern, or a backslash with the character after it. -/
structure Lexeme where
  char : Char
  escaped : Option Char
  position : Nat
deriving DecidableEq, Repr

namespace Lexeme

/-- The text of a lexeme. -/
def chars (l : Lexeme) : List Char :=
  match l.escaped with
  | some e => [l.char, e]
  | none => [l.char]

/-- Whether the lexeme is a character by itself. -/
def is (l : Lexeme) (c : Char) : Bool := l.char = c && l.escaped.isNone

/-- Whether the lexeme is a character by itself of a class. -/
def satisfies (l : Lexeme) (p : Char → Bool) : Bool := l.escaped.isNone && p l.char

/-- Whether the lexeme is a backslash with nothing after it. -/
def isBare (l : Lexeme) : Bool := l.is '\\'

end Lexeme

/-- The lexemes of a text that starts at a position. -/
def lexemesFrom (position : Nat) : List Char → List Lexeme
  | '\\' :: e :: rest => ⟨'\\', some e, position⟩ :: lexemesFrom (position + 2) rest
  | c :: rest => ⟨c, none, position⟩ :: lexemesFrom (position + 1) rest
  | [] => []

/-- What the reading of a pattern remembers. -/
structure Reading where
  /-- What is still to be read. -/
  rest : List Lexeme
  /-- The length of the text. -/
  length : Nat
  /-- The options of the whole pattern. -/
  options : Options
  /-- The widths of the groups, in order of their opening; none while a group is open. -/
  widths : List (Option Width)
  /-- The names of groups. -/
  names : List (String × Nat)
  /-- The number of the first group that opens inside the present look behind. -/
  behind : Option Nat
  /-- The groups that conditions name by number, with the position of the first mention. -/
  conditions : List (Nat × Nat)

/-- A step of the reading. -/
abbrev Reader := StateT Reading (Except Failure)

namespace Reader

/-- The position of what is read next. -/
def tell : Reader Nat := do
  let r ← get
  return match r.rest with
    | l :: _ => l.position
    | [] => r.length

/-- Stops at a position so many characters back. -/
def failBack {α : Type} (fault : Fault) (back : Nat) : Reader α := do
  throw (.fault fault (some ((← tell) - back)))

/-- Stops at the present position. -/
def fail {α : Type} (fault : Fault) : Reader α := failBack fault 0

/-- Goes on reading at the given lexemes. -/
def seek (rest : List Lexeme) : Reader Unit := do
  let r ← get
  match rest with
  | l :: _ =>
    if l.isBare then throw (.fault .bareBackslash (some (r.length - 1)))
  | [] => pure ()
  set { r with rest }

/-- What is read next. -/
def peek : Reader (Option Lexeme) := do return (← get).rest.head?

/-- Goes on by one lexeme. -/
def advance : Reader Unit := do seek (← get).rest.tail

/-- The next lexeme, read. -/
def next : Reader (Option Lexeme) := do
  let l ← peek
  advance
  return l

/-- Reads a character if it comes next. -/
def accept (c : Char) : Reader Bool := do
  match ← peek with
  | some l => if l.is c then advance; return true else return false
  | none => return false

/-- Reads at most so many characters of a class. -/
def acceptWhile (p : Char → Bool) : Nat → Reader (List Char)
  | 0 => return []
  | n + 1 => do
    match ← peek with
    | some l => if l.satisfies p then advance; return l.char :: (← acceptWhile p n) else return []
    | none => return []

/-- Reads up to a terminator. The bound is the number of lexemes. -/
def readUntil (terminator : Char) (what : String) : Nat → List Char → Reader (List Char)
  | 0, read => return read
  | n + 1, read => do
    match ← next with
    | none =>
      if read.isEmpty then fail (.missing what)
      else failBack (.unterminatedName (String.singleton terminator)) read.length
    | some l =>
      if l.is terminator then
        if read.isEmpty then failBack (.missing what) 1 else return read
      else readUntil terminator what n (read ++ l.chars)

/-- A name up to its terminator. -/
def name (terminator : Char) (what : String) : Reader String := do
  return String.ofList (← readUntil terminator what ((← get).rest.length + 1) [])

/-- Skips to the end of a line. -/
def skipLine : Nat → Reader Unit
  | 0 => return ()
  | n + 1 => do
    match ← next with
    | none => return ()
    | some l => if l.is '\n' then return () else skipLine n

/-- Skips to the end of a comment that started at the given position. -/
def skipComment (start : Nat) : Nat → Reader Unit
  | 0 => return ()
  | n + 1 => do
    match ← peek with
    | none => throw (.fault .unterminatedComment (some start))
    | some l => advance; if l.is ')' then return () else skipComment start n

/-- Whether a group can be referred to: it is closed. -/
def isClosed (group : Nat) : Reader Bool := do
  return match (← get).widths[group - 1]? with
    | some (some _) => true
    | _ => false

/-- Inside a look behind, only groups from before it can be referred to. -/
def checkBehind (group : Nat) : Reader Unit := do
  match (← get).behind with
  | none => return ()
  | some first =>
    if !(← isClosed group) then fail .openGroup
    if group ≥ first then fail .groupInLookBehind

end Reader

end Workgraph.Pattern
