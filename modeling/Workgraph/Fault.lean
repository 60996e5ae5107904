import Workgraph.Text.Quoted
import Workgraph.Number.Shortest
/-!
# Faults

What can go wrong while a workflow is loaded or run. `Defect` collects the failures of single
operations on values and of the collaborators; `Fault` adds the failures that the engine reports
itself. Each has a name and a message, and every wording stands here.
-/

namespace Workgraph

/-- A failure of an operation that the engine does not report itself. -/
inductive Defect where
  /-- A text that spells no integer. -/
  | numeral (text : String)
  /-- A text that spells no binary64 number. -/
  | realNumeral (text : String)
  /-- A numeral with more digits than are converted. -/
  | longNumeral (digits : Nat)
  /-- An integer with more digits than are written. -/
  | longInteger
  /-- A value of the given kind where a sequence was needed. -/
  | notIterable (kind : String)
  /-- An operation on texts applied to a value of another kind. -/
  | missingOperation (kind operation : String)
  /-- A value of the given kind where a text was needed. -/
  | textNeeded (kind : String)
  /-- A value that cannot be looked up in a set. -/
  | unhashable (kind : String)
  /-- A pattern that is neither text nor compiled. -/
  | patternNeeded
  /-- A repetition count beyond the limit of patterns. -/
  | repetitionCount
  /-- A pattern that chooses two sets of characters. -/
  | characterSets
  /-- An infinite number where an integer was needed. -/
  | infiniteInteger
  /-- A decimal exponent beyond the limit. -/
  | decimalOverflow
  /-- An integer outside the 64-bit range of a stored column. -/
  | storedInteger
  /-- A date outside the calendar. -/
  | dateRange
  /-- The difference of two times of which only one has an offset. -/
  | mixedTimes
  /-- A record whose id the entity already has. -/
  | duplicateRecord
  /-- A run whose id another run already has. -/
  | duplicateRun
  /-- A record of an entity that is not registered. -/
  | unregisteredEntity
  /-- A stored column that must not be empty. -/
  | emptyColumn (column : String)
  /-- A value that no stored column can hold. -/
  | unstorable (position : Nat) (kind : String)
  /-- A field that a record lacks. -/
  | missingField (name : String)
  /-- An address that cannot be used. -/
  | address (reason : String)
  /-- The text of a message header that is not ASCII. -/
  | headerText (text : String)
  /-- A recursion that does not end. -/
  | recursion
  /-- Fields that do not fit their declared types, with one line for each. -/
  | misfit (lines : List String)
  /-- A failure raised by a collaborator, with its name and words. -/
  | raised (name message : String)
deriving DecidableEq, Repr

namespace Defect

/-- The name of a defect. -/
def name : Defect → String
  | .numeral _ | .realNumeral _ | .longNumeral _ | .longInteger | .characterSets => "ValueError"
  | .notIterable _ | .textNeeded _ | .unhashable _ | .patternNeeded | .mixedTimes => "TypeError"
  | .missingOperation .. => "AttributeError"
  | .repetitionCount | .infiniteInteger | .dateRange | .storedInteger => "OverflowError"
  | .decimalOverflow => "Overflow"
  | .duplicateRecord | .duplicateRun | .unregisteredEntity | .emptyColumn _ => "IntegrityError"
  | .unstorable .. => "ProgrammingError"
  | .missingField _ => "KeyError"
  | .address _ => "InvalidURL"
  | .headerText .. => "UnicodeEncodeError"
  | .recursion => "RecursionError"
  | .misfit _ => "ValidationError"
  | .raised name _ => name

/-- A character outside ASCII by its number. -/
def numberedChar (c : Char) : String :=
  let n := c.toNat
  String.ofList (
    if n < 0x100 then '\\' :: 'x' :: Text.hex 2 n
    else if n < 0x10000 then '\\' :: 'u' :: Text.hex 4 n
    else '\\' :: 'U' :: Text.hex 8 n)

/-- The words about a header that is not ASCII. They name the first run of other characters. -/
def headerWords (text : String) : String :=
  let isAscii (c : Char) : Bool := c.toNat < 128
  let start := (text.toList.takeWhile isAscii).length
  let run := (text.toList.dropWhile isAscii).takeWhile fun c => !isAscii c
  "'ascii' codec can't encode " ++
    (match run with
      | [c] => "character '" ++ numberedChar c ++ "' in position " ++ digitsText start
      | _ => "characters in position " ++ digitsText start ++ "-" ++
        digitsText (start + run.length - 1)) ++
    ": ordinal not in range(128)"

/-- The message of a defect. -/
def message : Defect → String
  | .numeral text => "invalid literal for int() with base 10: " ++ Text.quoted text
  | .realNumeral text => "could not convert string to float: " ++ Text.quoted text
  | .longNumeral digits =>
    "Exceeds the limit (4300 digits) for integer string conversion: value has " ++
      digitsText digits ++ " digits; use sys.set_int_max_str_digits() to increase the limit"
  | .longInteger =>
    "Exceeds the limit (4300 digits) for integer string conversion; " ++
      "use sys.set_int_max_str_digits() to increase the limit"
  | .notIterable kind => "'" ++ kind ++ "' object is not iterable"
  | .missingOperation kind operation =>
    "'" ++ kind ++ "' object has no attribute '" ++ operation ++ "'"
  | .textNeeded kind => "expected string or bytes-like object, got '" ++ kind ++ "'"
  | .unhashable kind => "unhashable type: '" ++ kind ++ "'"
  | .patternNeeded => "first argument must be string or compiled pattern"
  | .repetitionCount => "the repetition number is too large"
  | .characterSets => "ASCII and UNICODE flags are incompatible"
  | .infiniteInteger => "cannot convert float infinity to integer"
  | .decimalOverflow => "[<class 'decimal.Overflow'>]"
  | .storedInteger => "Python int too large to convert to SQLite INTEGER"
  | .dateRange => "date value out of range"
  | .mixedTimes => "can't subtract offset-naive and offset-aware datetimes"
  | .duplicateRecord => "UNIQUE constraint failed: entity_records.entity, entity_records.id"
  | .duplicateRun => "UNIQUE constraint failed: workflow_executions.id"
  | .unregisteredEntity => "FOREIGN KEY constraint failed"
  | .emptyColumn column => "NOT NULL constraint failed: " ++ column
  | .unstorable position kind =>
    "Error binding parameter " ++ digitsText position ++ ": type '" ++ kind ++ "' is not supported"
  | .missingField name => Text.quoted name
  | .address reason => reason
  | .headerText text => headerWords text
  | .recursion => "maximum recursion depth exceeded"
  | .misfit lines => "; ".intercalate lines
  | .raised _ message => message

end Defect

/-- A failure of loading or running a workflow. -/
inductive Fault where
  /-- A node id that names no node, and the node that refers to it. -/
  | nodeNotFound (id : String) (source : Option String)
  /-- An entity that the store does not know. -/
  | entityNotFound (entity : String)
  /-- A network call that was never answered, for a reason, and the name of the failure behind it.
  -/
  | transport (method url reason : String) (behind : Option String)
  /-- A graph with structural errors. -/
  | invalidGraph (errors : List String)
  /-- Nodes that do not fit the schema of their types. -/
  | malformed (errors : List String)
  /-- An arithmetic expression that has no value. -/
  | expression (words : String) (behind : Option String)
  /-- A transform that does not apply to its input. -/
  | transform (type reason : String) (behind : Option String)
  /-- A node whose handler failed with a defect. -/
  | nodeFailed (id : Option String) (cause : Defect)
  /-- A defect outside a run. -/
  | defect (cause : Defect)
deriving DecidableEq, Repr

namespace Fault

/-- The name of a fault. -/
def name : Fault → String
  | .nodeNotFound .. => "NodeNotFoundError"
  | .entityNotFound _ => "EntityNotFoundError"
  | .transport .. => "TransportFailureError"
  | .invalidGraph _ => "GraphValidationError"
  | .malformed _ => "MalformedConfigError"
  | .expression .. => "ExpressionError"
  | .transform .. => "TransformError"
  | .nodeFailed .. => "NodeExecutionError"
  | .defect cause => cause.name

/-- The message of a fault. -/
def message : Fault → String
  | .nodeNotFound id source =>
    match source with
    | some s =>
      if s = "" then "Node " ++ id ++ " not found"
      else "Node " ++ id ++ " not found (referenced by '" ++ s ++ "')"
    | none => "Node " ++ id ++ " not found"
  | .entityNotFound entity => "Entity " ++ entity ++ " not found"
  | .transport method url reason _ => method ++ " " ++ url ++ " failed: " ++ reason
  | .invalidGraph errors | .malformed errors =>
    "Invalid workflow graph: " ++ "; ".intercalate errors
  | .expression words _ => words
  | .transform type reason _ => "Transform '" ++ type ++ "' failed: " ++ reason
  | .nodeFailed id cause =>
    (match id with
      | some i => if i = "" then "Workflow" else "Node " ++ i
      | none => "Workflow") ++ " failed: " ++ cause.name ++ ": " ++ cause.message
  | .defect cause => cause.message

/-- The single errors that a load-time fault lists. -/
def errors? : Fault → Option (List String)
  | .invalidGraph errors | .malformed errors => some errors
  | _ => none

/-- The name of the failure behind a fault. -/
def behind? : Fault → Option String
  | .transport _ _ _ behind | .expression _ behind | .transform _ _ behind => behind
  | .malformed _ => some "ValidationError"
  | .nodeFailed _ cause => some cause.name
  | _ => none

/-- Whether the engine reports the fault itself. -/
def isReported : Fault → Bool
  | .defect _ => false
  | _ => true

end Fault

/-- A defect of an operation on values is a fault. -/
def liftDefect {α : Type} : Except Defect α → Except Fault α
  | .ok a => .ok a
  | .error d => .error (.defect d)

end Workgraph
