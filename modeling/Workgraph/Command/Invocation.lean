import Workgraph.Command.LogLevel
import Workgraph.Command.Words
import Workgraph.Entries
import Workgraph.Number.Numeral
/-!
# Invocations

What a command line asks for: a command with its options, or words about the program. Files that a
command reads must be there, or the command line is not understood.
-/

namespace Workgraph

/-- How a graph is drawn. -/
inductive Drawing where
  /-- One branch for each reference. -/
  | tree
  /-- Nodes by their depth. -/
  | levels
deriving DecidableEq, Repr

namespace Drawing

/-- The name of a way to draw. -/
def name : Drawing → String
  | tree => "tree"
  | levels => "levels"

/-- The way to draw of a name. -/
def ofName? (s : String) : Option Drawing := [tree, levels].find? fun d => d.name = s

end Drawing

/-- How a workflow is run from a command line. -/
structure RunOptions where
  file : String
  /-- Variables to start with, as JSON. -/
  context : Option String
  /-- A file with variables to start with. -/
  contextFile : Option String
  /-- The seconds after which the run is cut off. -/
  timeout : Option Binary64
  /-- Whether the result is written as JSON. -/
  asJson : Bool
  /-- Whether the run is left out of the history. -/
  unrecorded : Bool

/-- A command. -/
inductive Command where
  | init
  | validate (file : String)
  | visualize (file : String) (drawing : Drawing)
  | run (options : RunOptions)
  | history (runId : Option String) (limit : Int)
  | version

/-- What a command line asks for. -/
inductive Invocation where
  | perform (command : Command) (level : Option LogLevel)
  /-- The line with the version. -/
  | version
  /-- Words about the program, or about one of its commands. -/
  | help (command : Option String)

namespace Command

/-- A switch that stands for itself. -/
def flag (name : String) : Switch := ⟨name, none, false⟩

/-- A switch with a value. -/
def valued (name : String) : Switch := ⟨name, none, true⟩

/-- The switches before the name of a command. -/
def programSwitches : List Switch := [flag "version", flag "help", valued "log-level"]

/-- The switches of the commands. -/
def switches : Entries (List Switch) :=
  [("init", [flag "help"]), ("validate", [flag "help"]),
    ("visualize", [flag "help", valued "layout"]),
    ("run", [flag "help", valued "context", valued "context-file", valued "timeout", flag "json",
      flag "no-history"]),
    ("history", [flag "help", ⟨"limit", some 'n', true⟩]), ("version", [flag "help"])]

/-- The value of an option, if it is given, that has to be of a kind. -/
def option {α : Type} (w : Words) (name : String) (read? : String → Option α) :
    Except Misuse (Option α) :=
  match w.value? name with
  | none => .ok none
  | some s =>
    match read? s with
    | some a => .ok (some a)
    | none => .error (.badValue ("--" ++ name) s)

/-- No operands. -/
def noOperand (w : Words) : Except Misuse Unit :=
  if w.operands.isEmpty then .ok () else .error (.extraOperands w.operands)

/-- At most one operand. -/
def optionalOperand (w : Words) : Except Misuse (Option String) :=
  match w.operands with
  | [] => .ok none
  | [word] => .ok (some word)
  | _ :: rest => .error (.extraOperands rest)

/-- The single operand, which names a file that is there. -/
def fileOperand (isFile : String → Bool) (w : Words) : Except Misuse String := do
  match ← optionalOperand w with
  | none => throw (.missingOperand "WORKFLOW_FILE")
  | some file => if isFile file then return file else throw (.missingFile file)

/-- The command of a name with words. -/
def ofWords (isFile : String → Bool) (name : String) (w : Words) : Except Misuse Command := do
  match name with
  | "init" => noOperand w; return init
  | "version" => noOperand w; return version
  | "validate" => return validate (← fileOperand isFile w)
  | "visualize" =>
    let drawing ← option w "layout" Drawing.ofName?
    return visualize (← fileOperand isFile w) (drawing.getD .tree)
  | "run" =>
    let contextFile ← option w "context-file" fun s => if isFile s then some s else none
    let timeout ← option w "timeout" readReal?
    return run ⟨← fileOperand isFile w, w.value? "context", contextFile, timeout, w.has "json",
      w.has "no-history"⟩
  | "history" =>
    let limit ← option w "limit" fun s => (readInteger s).toOption
    return history (← optionalOperand w) (limit.getD 20)
  | _ => throw (.unknownCommand name)

end Command

namespace Invocation

open Command

/-- What the words of a command line ask for. Words about the program go before everything else. -/
def ofWords (isFile : String → Bool) (line : List String) : Except Misuse Invocation := do
  let w ← readWords programSwitches true line
  match w.options.find? fun o => o.1 = "version" || o.1 = "help" with
  | some o => return if o.1 = "version" then version else help none
  | none =>
    let level ← option w "log-level" LogLevel.ofChoice?
    match w.operands with
    | [] => throw .missingCommand
    | name :: rest =>
      match switches.get? name with
      | none => throw (.unknownCommand name)
      | some known =>
        let w ← readWords known false rest
        if w.has "help" then return help (some name)
        return perform (← Command.ofWords isFile name w) level

end Invocation

end Workgraph
