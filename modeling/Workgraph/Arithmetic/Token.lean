import Workgraph.Number.Numeral
import Workgraph.Text.Letter
import Workgraph.Value.Literal
/-!
# Tokens of arithmetic expressions

Cutting an expression into numbers, placeholders, operators and parentheses. A number is a run of
digits with at most one point; a placeholder is a dotted name in braces.
-/

namespace Workgraph.Arithmetic

/-- What a token stands for. -/
inductive Symbol where
  | number (n : Number)
  | placeholder (name : String)
  | plus
  | minus
  | star
  | slash
  | left
  | right
deriving DecidableEq, Repr

/-- A symbol and the place where it starts. -/
structure Token where
  symbol : Symbol
  position : Nat
deriving DecidableEq, Repr

/-- The words for a fault at a place. -/
def wordsAt (words : String) (position : Nat) : String :=
  words ++ " at position " ++ digitsText position

/-- A fault of an expression, with its place. -/
def faultAt (words : String) (position : Nat) : Fault := .expression (wordsAt words position) none

/-- The symbol of a single character. -/
def Symbol.ofChar? : Char → Option Symbol
  | '+' => some .plus
  | '-' => some .minus
  | '*' => some .star
  | '/' => some .slash
  | '(' => some .left
  | ')' => some .right
  | _ => none

/-- The text of a symbol, as messages show it. -/
def Symbol.text : Symbol → String
  | .number n => (Value.ofNumber n).literal
  | .placeholder name => name
  | .plus => "+"
  | .minus => "-"
  | .star => "*"
  | .slash => "/"
  | .left => "("
  | .right => ")"

/-- Whether a character belongs to a number. -/
def isNumberChar (c : Char) : Bool := Text.isDigit c || c = '.'

/-- The number that a run of digits and points spells. -/
def readNumber (position : Nat) (run : List Char) : Except Fault Number :=
  if 2 ≤ run.count '.' then
    let whole := run.takeWhile (· ≠ '.')
    let places := (run.drop (whole.length + 1)).takeWhile (· ≠ '.')
    .error (faultAt "Invalid number format" (position + whole.length + 1 + places.length))
  else if run = ['.'] then .error (faultAt "Invalid number" position)
  else if run.contains '.' then
    match readReal? (String.ofList run) with
    | some x => .ok (.real x)
    | none => .error (.defect (.realNumeral (String.ofList run)))
  else
    match readInteger (String.ofList run) with
    | .ok n => .ok (.int n)
    | .error d => .error (.defect d)

/-- The parts of a dotted name, each of letters and digits apart from underscores. -/
def isDottedName (name : String) : Bool :=
  name ≠ "" && (name.splitOn ".").all fun part =>
    let bare := part.toList.filter (· ≠ '_')
    !bare.isEmpty && bare.all Text.isAlphanumeric

/-- The name between braces, without the white space around it. -/
def readName (position : Nat) (inner : List Char) : Except Fault String :=
  let name := Text.strip (String.ofList inner)
  if isDottedName name then .ok name
  else .error (faultAt ("Invalid placeholder '\x7b" ++ name ++ "\x7d'") position)

theorem length_dropWhile_le {p : Char → Bool} (cs : List Char) :
    (cs.dropWhile p).length ≤ cs.length :=
  (List.dropWhile_sublist p).length_le

/-- The tokens of a text that starts at a place. -/
def tokensFrom (position : Nat) (cs : List Char) : Except Fault (List Token) :=
  match cs with
  | [] => .ok []
  | c :: rest =>
    if Text.isBlank c then tokensFrom (position + 1) rest
    else if isNumberChar c then do
      let run := c :: rest.takeWhile isNumberChar
      let n ← readNumber position run
      let more ← tokensFrom (position + run.length) (rest.dropWhile isNumberChar)
      return ⟨.number n, position⟩ :: more
    else if c = '\x7b' then
      let inner := rest.takeWhile (· ≠ '\x7d')
      if inner.length = rest.length then .error (faultAt "Unterminated placeholder" position)
      else do
        let name ← readName position inner
        let more ← tokensFrom (position + inner.length + 2) ((rest.dropWhile (· ≠ '\x7d')).drop 1)
        return ⟨.placeholder name, position⟩ :: more
    else
      match Symbol.ofChar? c with
      | some s => do
        let more ← tokensFrom (position + 1) rest
        return ⟨s, position⟩ :: more
      | none => .error (faultAt ("Unexpected character '" ++ String.singleton c ++ "'") position)
termination_by cs.length
decreasing_by
  all_goals simp only [List.length_cons, List.length_drop]
  all_goals first
    | omega
    | exact Nat.lt_succ_of_le (length_dropWhile_le rest)
    | exact Nat.lt_succ_of_le (Nat.le_trans (Nat.sub_le _ _) (length_dropWhile_le rest))

/-- The tokens of an expression. -/
def tokenize (s : String) : Except Fault (List Token) := tokensFrom 0 s.toList

end Workgraph.Arithmetic
