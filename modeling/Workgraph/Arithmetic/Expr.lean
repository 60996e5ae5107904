import Workgraph.Arithmetic.Token
import Workgraph.Value.Coerce
import Workgraph.Value.Document
/-!
# Arithmetic expressions and their values

Expressions as trees, and their values from left to right. Integers are exact; a quotient is always
a binary64 number. A tree may end in a broken place, where the tokens stopped being an expression:
it fails there, after everything before it has been evaluated.
-/

namespace Workgraph.Arithmetic

/-- The operations between two operands. -/
inductive Operation where
  | add
  | subtract
  | multiply
  | divide
deriving DecidableEq, Repr

/-- An expression. -/
inductive Expr where
  | number (n : Number)
  | placeholder (name : String)
  | sign (negative : Bool) (operand : Expr)
  | binary (operation : Operation) (position : Nat) (left right : Expr)
  /-- A place without an operand. -/
  | missing (fault : Fault)
  /-- An expression followed by a token that does not continue it. -/
  | broken (before : Expr) (fault : Fault)
deriving Repr

/-- Both numbers as binary64 numbers, if they are within range. -/
def asReals (m n : Number) : Option (Binary64 × Binary64) :=
  match m, n with
  | .real x, .real y => some (x, y)
  | .real x, .int k => (Binary64.ofInt? k).map (x, ·)
  | .int k, .real y => (Binary64.ofInt? k).map (·, y)
  | .int j, .int k => (Binary64.ofInt? j).bind fun x => (Binary64.ofInt? k).map (x, ·)

/-- The quotient of two integers, rounded once, if it is within range. -/
def intQuotient? (m n : Int) : Option Binary64 :=
  (Binary64.ofRatio (decide (m < 0) != decide (n < 0)) m.natAbs n.natAbs).finite?

/-- Two numbers under an operation on integers or its counterpart on binary64 numbers. -/
def lift (onInt : Int → Int → Int) (onReal : Binary64 → Binary64 → Binary64) (m n : Number) :
    Option Number :=
  match m, n with
  | .int j, .int k => some (.int (onInt j k))
  | m, n => (asReals m n).map fun (x, y) => .real (onReal x y)

/-- The result of an operation, unless it leaves the range of binary64 numbers. Division by zero is
excluded before. -/
def Operation.result? : Operation → Number → Number → Option Number
  | .add, m, n => lift (· + ·) (· + ·) m n
  | .subtract, m, n => lift (· - ·) (· - ·) m n
  | .multiply, m, n => lift (· * ·) (· * ·) m n
  | .divide, .int j, .int k => (intQuotient? j k).map .real
  | .divide, m, n => (asReals m n).map fun (x, y) => .real (x / y)

/-- An operation at a place of the text. -/
def Operation.apply (operation : Operation) (position : Nat) (m n : Number) : Except Fault Number :=
  if operation = .divide ∧ n.isZero then .error (faultAt "Division by zero" position)
  else
    match operation.result? m n with
    | some r => .ok r
    | none => .error (.expression (wordsAt "Result out of range" position) (some "OverflowError"))

/-- The opposite of a number. -/
def negate : Number → Number
  | .int n => .int (-n)
  | .real x => .real (-x)

/-- The number that a placeholder stands for. -/
def resolved (name : String) (v : Value) : Except Fault Number :=
  match v with
  | .null => .error (.expression ("Placeholder '\x7b" ++ name ++ "\x7d' is not set") none)
  | v =>
    match v.toNumber? with
    | some n => .ok n
    | none =>
      -- The message shows the value, which an integer of too many digits prevents.
      if v.hasLongInteger then .error (.defect .longInteger)
      else
        .error (.expression
          ("Placeholder '\x7b" ++ name ++ "\x7d' is not numeric: " ++ v.literal) none)

namespace Expr

/-- The value of an expression, from left to right. -/
def eval (resolve : String → Except Defect Value) : Expr → Except Fault Number
  | .number n => .ok n
  | .placeholder name =>
    match resolve name with
    | .error d => .error (.defect d)
    | .ok v => resolved name v
  | .sign negative e =>
    match e.eval resolve with
    | .error f => .error f
    | .ok n => .ok (if negative then negate n else n)
  | .binary operation position l r =>
    match l.eval resolve with
    | .error f => .error f
    | .ok m =>
      match r.eval resolve with
      | .error f => .error f
      | .ok n => operation.apply position m n
  | .missing f => .error f
  | .broken e f =>
    match e.eval resolve with
    | .error g => .error g
    | .ok _ => .error f

end Expr

end Workgraph.Arithmetic
