import Workgraph.Fault
import Workgraph.Text.Case
/-!
# Log levels

How grave a line has to be to be logged. Settings may call a level by more names than a command
line.
-/

namespace Workgraph

/-- A log level. -/
inductive LogLevel where
  | notSet
  | debug
  | info
  | warning
  | error
  | critical
deriving DecidableEq, Repr

namespace LogLevel

/-- The name of a level. -/
def name : LogLevel → String
  | notSet => "NOTSET"
  | debug => "DEBUG"
  | info => "INFO"
  | warning => "WARNING"
  | error => "ERROR"
  | critical => "CRITICAL"

/-- The level of a name or of one of the other names for it. -/
def ofName? : String → Option LogLevel
  | "NOTSET" => some notSet
  | "DEBUG" => some debug
  | "INFO" => some info
  | "WARNING" | "WARN" => some warning
  | "ERROR" => some error
  | "CRITICAL" | "FATAL" => some critical
  | _ => none

/-- The level of a name in any case. -/
def ofWord (word : String) : Except Defect LogLevel :=
  match ofName? (Text.upper word) with
  | some level => .ok level
  | none => .error (.raised "ValueError" ("Unknown level: " ++ Text.quoted (Text.upper word)))

/-- The levels that a command line can ask for. -/
def choices : List LogLevel := [debug, info, warning, error]

/-- The level that a command line asks for. -/
def ofChoice? (word : String) : Option LogLevel :=
  choices.find? fun level => level.name = String.ofList (word.toList.map Char.toUpper)

end LogLevel

end Workgraph
