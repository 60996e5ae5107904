import Workgraph.Arithmetic.Expr
/-!
# From tokens to expressions

The grammar of expressions, by recursive descent:

* a sum is terms joined by plus and minus signs, from the left;
* a term is factors joined by multiplication and division signs, from the left;
* a factor is a signed factor, a number, a placeholder, or a sum in parentheses.

Where the tokens stop being a sentence of the grammar, the tree ends in a broken place.
-/

namespace Workgraph.Arithmetic

/-- A parsed expression with the tokens after it, or a tree that ends in a broken place. -/
abbrev Parsed := Except Expr (Expr × List Token)

/-- The operation of a sum. -/
def sumOperation? : Symbol → Option Operation
  | .plus => some .add
  | .minus => some .subtract
  | _ => none

/-- The operation of a term. -/
def termOperation? : Symbol → Option Operation
  | .star => some .multiply
  | .slash => some .divide
  | _ => none

mutual

/-- A sum at the start of the tokens; `last` is the place after the text. -/
def parseSum (last : Nat) : Nat → List Token → Parsed
  | 0, _ => .error (.missing (.expression "Unexpected end of expression" none))
  | fuel + 1, ts =>
    match parseTerm last fuel ts with
    | .error e => .error e
    | .ok (e, rest) => moreSum last fuel e rest

/-- The rest of a sum after its first terms. -/
def moreSum (last : Nat) : Nat → Expr → List Token → Parsed
  | 0, e, ts => .ok (e, ts)
  | _ + 1, e, [] => .ok (e, [])
  | fuel + 1, e, t :: rest =>
    match sumOperation? t.symbol with
    | none => .ok (e, t :: rest)
    | some o =>
      match parseTerm last fuel rest with
      | .error r => .error (.binary o t.position e r)
      | .ok (r, rest) => moreSum last fuel (.binary o t.position e r) rest

/-- A term at the start of the tokens. -/
def parseTerm (last : Nat) : Nat → List Token → Parsed
  | 0, _ => .error (.missing (.expression "Unexpected end of expression" none))
  | fuel + 1, ts =>
    match parseFactor last fuel ts with
    | .error e => .error e
    | .ok (e, rest) => moreTerm last fuel e rest

/-- The rest of a term after its first factors. -/
def moreTerm (last : Nat) : Nat → Expr → List Token → Parsed
  | 0, e, ts => .ok (e, ts)
  | _ + 1, e, [] => .ok (e, [])
  | fuel + 1, e, t :: rest =>
    match termOperation? t.symbol with
    | none => .ok (e, t :: rest)
    | some o =>
      match parseFactor last fuel rest with
      | .error r => .error (.binary o t.position e r)
      | .ok (r, rest) => moreTerm last fuel (.binary o t.position e r) rest

/-- A factor at the start of the tokens. -/
def parseFactor (last : Nat) : Nat → List Token → Parsed
  | 0, _ => .error (.missing (.expression "Unexpected end of expression" none))
  | _ + 1, [] => .error (.missing (.expression "Unexpected end of expression" none))
  | fuel + 1, t :: rest =>
    match t.symbol with
    | .number n => .ok (.number n, rest)
    | .placeholder name => .ok (.placeholder name, rest)
    | .plus =>
      match parseFactor last fuel rest with
      | .error e => .error (.sign false e)
      | .ok (e, rest) => .ok (.sign false e, rest)
    | .minus =>
      match parseFactor last fuel rest with
      | .error e => .error (.sign true e)
      | .ok (e, rest) => .ok (.sign true e, rest)
    | .left =>
      match parseSum last fuel rest with
      | .error e => .error e
      | .ok (e, []) => .error (.broken e (faultAt "Expected ')'" last))
      | .ok (e, u :: rest) =>
        if u.symbol = .right then .ok (e, rest)
        else .error (.broken e (faultAt "Expected ')'" u.position))
    | s => .error (.missing (faultAt ("Unexpected '" ++ s.text ++ "'") t.position))

end

/-- The expression that the tokens spell, which ends in a broken place if they spell none. -/
def parse (last : Nat) (ts : List Token) : Expr :=
  match parseSum last (3 * ts.length + 3) ts with
  | .error e => e
  | .ok (e, []) => e
  | .ok (e, t :: _) => .broken e (faultAt ("Unexpected '" ++ t.symbol.text ++ "'") t.position)

/-- The most characters of an expression. -/
def maxLength : Nat := 500

/-- The result of an expression: a binary64 number must be finite, and an integral one becomes an
integer. -/
def finish : Number → Except Fault Number
  | .int n => .ok (.int n)
  | .real x =>
    if !x.isFinite then .error (.expression "Result out of range" none)
    else if x.isInteger then
      match x.truncate? with
      | some n => .ok (.int n)
      | none => .ok (.real x)
    else .ok (.real x)

/-- The value of an expression text, with placeholders resolved by name. -/
def evaluate (text : String) (resolve : String → Except Defect Value) : Except Fault Number := do
  if Text.strip text = "" then throw (.expression "Expression cannot be empty" none)
  if text.length > maxLength then
    throw (.expression ("Expression too long (" ++ digitsText text.length ++ " chars, max " ++
      digitsText maxLength ++ ")") none)
  let tokens ← tokenize text
  let result ← (parse text.length tokens).eval resolve
  finish result

end Workgraph.Arithmetic
