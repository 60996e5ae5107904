import Workgraph.Number.Shortest
/-!
# Fitting values to declared types

A value either fits a declared type or shows misfits, each with the path to the part that does not
fit and a reason. Parts are checked independently, so one check finds the misfits of all parts, in
the order in which the parts are declared.
-/

namespace Workgraph

namespace Schema

/-- A step of the path to a part of a value. -/
inductive Step where
  | field (name : String)
  | item (index : Nat)
deriving DecidableEq, Repr

/-- The text of a step. -/
def Step.text : Step → String
  | .field name => name
  | .item index => digitsText index

/-- Why a part does not fit. -/
inductive Reason where
  | missing
  | notText
  | emptyText
  | notInteger
  | integerText
  | integerSize
  | integerFraction
  | notFinite
  | notNumber
  | numberText
  | notAbove (bound : Nat)
  | below (bound : Nat)
  | notBoolean
  | booleanValue
  | notList
  | notDictionary
  | notRecord (name : String)
  | notFields
  | notAmong (names : List String)
  | notPath
  | notMoment (problem : String)
deriving DecidableEq, Repr

/-- Quoted names, the last after the word "or". -/
def alternativesText : List String → String
  | [] => ""
  | [a] => "'" ++ a ++ "'"
  | [a, b] => "'" ++ a ++ "' or '" ++ b ++ "'"
  | a :: rest => "'" ++ a ++ "', " ++ alternativesText rest

/-- The words for a reason. -/
def Reason.words : Reason → String
  | .missing => "Field required"
  | .notText => "Input should be a valid string"
  | .emptyText => "String should have at least 1 character"
  | .notInteger => "Input should be a valid integer"
  | .integerText => "Input should be a valid integer, unable to parse string as an integer"
  | .integerSize => "Unable to parse input string as an integer, exceeded maximum size"
  | .integerFraction => "Input should be a valid integer, got a number with a fractional part"
  | .notFinite => "Input should be a finite number"
  | .notNumber => "Input should be a valid number"
  | .numberText => "Input should be a valid number, unable to parse string as a number"
  | .notAbove bound => "Input should be greater than " ++ digitsText bound
  | .below bound => "Input should be greater than or equal to " ++ digitsText bound
  | .notBoolean => "Input should be a valid boolean"
  | .booleanValue => "Input should be a valid boolean, unable to interpret input"
  | .notList => "Input should be a valid list"
  | .notDictionary => "Input should be a valid dictionary"
  | .notRecord name => "Input should be a valid dictionary or instance of " ++ name
  | .notFields => "Input should be a valid dictionary or object to extract fields from"
  | .notAmong names => "Input should be " ++ alternativesText names
  | .notPath => "Input is not a valid path for <class 'pathlib.Path'>"
  | .notMoment problem => "Input should be a valid datetime" ++ problem

/-- A part that does not fit. -/
structure Misfit where
  path : List Step
  reason : Reason
deriving DecidableEq, Repr

/-- The line for a misfit: its path, with points between the steps, and the reason. -/
def Misfit.line (m : Misfit) : String :=
  let place := ".".intercalate (m.path.map Step.text)
  if place = "" then m.reason.words else place ++ ": " ++ m.reason.words

/-- A fitting value, or misfits. -/
inductive Fit (α : Type) where
  | fits (value : α)
  | misfits (found : List Misfit)
deriving Inhabited

namespace Fit

variable {α β : Type}

/-- A single misfit at the value itself. -/
def refuse (reason : Reason) : Fit α := .misfits [⟨[], reason⟩]

/-- A value if there is one, else a single misfit. -/
def ofOption (reason : Reason) : Option α → Fit α
  | some a => .fits a
  | none => .refuse reason

/-- Changes a fitting value. -/
def map (f : α → β) : Fit α → Fit β
  | .fits a => .fits (f a)
  | .misfits found => .misfits found

/-- Two independent parts: both fit, or the misfits of both are found. -/
def both (f : Fit (α → β)) (a : Fit α) : Fit β :=
  match f, a with
  | .fits g, .fits x => .fits (g x)
  | .fits _, .misfits found => .misfits found
  | .misfits found, .fits _ => .misfits found
  | .misfits found, .misfits more => .misfits (found ++ more)

instance : Functor Fit where
  map := Fit.map

instance : Applicative Fit where
  pure := .fits
  seq f a := Fit.both f (a ())

/-- A further check of a fitting value. -/
def check (a : Fit α) (next : α → Fit β) : Fit β :=
  match a with
  | .fits x => next x
  | .misfits found => .misfits found

/-- A part, seen from the value that has it at a step. -/
def within (step : Step) : Fit α → Fit α
  | .fits a => .fits a
  | .misfits found => .misfits (found.map fun m => { m with path := step :: m.path })

end Fit

end Schema

end Workgraph
