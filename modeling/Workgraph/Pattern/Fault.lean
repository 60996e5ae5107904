import Workgraph.Number.Shortest
import Workgraph.Text.Quoted
/-!
# Faults of patterns

Why a text is not a pattern, and where in the text the fault is.
-/

namespace Workgraph.Pattern

/-- A fault of a pattern. -/
inductive Fault where
  /-- A backslash with nothing after it. -/
  | bareBackslash
  | missing (what : String)
  | unterminatedName (terminator : String)
  | incompleteEscape (escape : String)
  | badEscape (escape : String)
  | octalRange (escape : String)
  | unknownCharacter (name : String)
  | openGroup
  | groupInLookBehind
  | invalidGroup (number : Int)
  | unterminatedSet
  | badRange (low high : String)
  | repeatOrder
  | nothingToRepeat
  | multipleRepeat
  | unexpectedEnd
  | unknownExtension (text : String)
  | badName (name : String)
  | unknownName (name : String)
  | renamedGroup (name : String) (number earlier : Nat)
  | zeroGroup
  | thirdBranch
  | unterminatedComment
  | unterminatedGroup
  | unbalanced
  | lateOptions
  | unknownOption
  | localeOption
  | conflictingOptions
  | switchOnGlobal
  | switchOffGlobal
  | switchOffCharacters
  | switchTwice
  | variableLookBehind
  | longLookBehind
  | templateRepeat (greed : String)
deriving DecidableEq, Repr

/-- The words for a fault. -/
def Fault.words : Fault → String
  | .bareBackslash => "bad escape (end of pattern)"
  | .missing what => "missing " ++ what
  | .unterminatedName terminator => "missing " ++ terminator ++ ", unterminated name"
  | .incompleteEscape escape => "incomplete escape " ++ escape
  | .badEscape escape => "bad escape " ++ escape
  | .octalRange escape => "octal escape value " ++ escape ++ " outside of range 0-0o377"
  | .unknownCharacter name => "undefined character name " ++ Text.quoted name
  | .openGroup => "cannot refer to an open group"
  | .groupInLookBehind => "cannot refer to group defined in the same lookbehind subpattern"
  | .invalidGroup number => "invalid group reference " ++ intText number
  | .unterminatedSet => "unterminated character set"
  | .badRange low high => "bad character range " ++ low ++ "-" ++ high
  | .repeatOrder => "min repeat greater than max repeat"
  | .nothingToRepeat => "nothing to repeat"
  | .multipleRepeat => "multiple repeat"
  | .unexpectedEnd => "unexpected end of pattern"
  | .unknownExtension text => "unknown extension ?" ++ text
  | .badName name => "bad character in group name " ++ Text.quoted name
  | .unknownName name => "unknown group name " ++ Text.quoted name
  | .renamedGroup name number earlier =>
    "redefinition of group name " ++ Text.quoted name ++ " as group " ++ digitsText number ++
      "; was group " ++ digitsText earlier
  | .zeroGroup => "bad group number"
  | .thirdBranch => "conditional backref with more than two branches"
  | .unterminatedComment => "missing ), unterminated comment"
  | .unterminatedGroup => "missing ), unterminated subpattern"
  | .unbalanced => "unbalanced parenthesis"
  | .lateOptions => "global flags not at the start of the expression"
  | .unknownOption => "unknown flag"
  | .localeOption => "bad inline flags: cannot use 'L' flag with a str pattern"
  | .conflictingOptions => "bad inline flags: flags 'a', 'u' and 'L' are incompatible"
  | .switchOnGlobal => "bad inline flags: cannot turn on global flag"
  | .switchOffGlobal => "bad inline flags: cannot turn off global flag"
  | .switchOffCharacters => "bad inline flags: cannot turn off flags 'a', 'u' and 'L'"
  | .switchTwice => "bad inline flags: flag turned on and off"
  | .variableLookBehind => "look-behind requires fixed-width pattern"
  | .longLookBehind => "looks too much behind"
  | .templateRepeat greed => "internal: unsupported template operator " ++ greed

/-- Why a pattern cannot be used. -/
inductive Failure where
  /-- A fault, and the position of the text where it was noticed. -/
  | fault (fault : Fault) (position : Option Nat)
  /-- A repetition count beyond the limit. -/
  | repetitionCount
  /-- A repetition count with more digits than are converted. -/
  | longNumeral (digits : Nat)
  /-- Two sets of characters chosen for the whole pattern. -/
  | twoCharacterSets
deriving DecidableEq, Repr

/-- The line and column of a position in a text, both from one. -/
def lineColumn (cs : List Char) (position : Nat) : Nat × Nat :=
  let before := cs.take position
  (before.count '\n' + 1, (before.reverse.takeWhile (· ≠ '\n')).length + 1)

/-- The message for a fault of a pattern: its words and position, with line and column if the
pattern has several lines. -/
def Fault.message (fault : Fault) (pattern : String) : Option Nat → String
  | none => fault.words
  | some position =>
    let base := fault.words ++ " at position " ++ digitsText position
    if pattern.toList.contains '\n' then
      let (line, column) := lineColumn pattern.toList position
      base ++ " (line " ++ digitsText line ++ ", column " ++ digitsText column ++ ")"
    else base

end Workgraph.Pattern
