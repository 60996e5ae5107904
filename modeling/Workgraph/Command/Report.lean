import Workgraph.Command.LogLevel
import Workgraph.Command.Words
import Workgraph.Display.Outline
import Workgraph.Display.Table
import Workgraph.Engine.World
import Workgraph.Site.Site
/-!
# Reports of commands

What a command leaves behind: what it has shown, how it has ended, and the site. A command is a
script that works on a site and may end early.
-/

namespace Workgraph

/-- What is shown at once. -/
inductive Block where
  | markup (text : String)
  | table (t : Table)
  | tree (o : Outline)
  /-- A text in a frame with a title. -/
  | panel (title text : String)

/-- Where something is shown. -/
inductive Channel where
  | output
  | error
deriving DecidableEq, Repr

/-- Something that has been shown somewhere. -/
structure Printed where
  channel : Channel
  block : Block

open Command in
/-- How a command ends. -/
inductive CommandEnd where
  | exit (code : Nat)
  /-- Something went wrong that the command does not report itself. -/
  | broken (cause : Defect)
  /-- The command line was not understood. -/
  | misused (misuse : Misuse)
deriving DecidableEq, Repr

/-- The exit code of an ending. -/
def CommandEnd.code : CommandEnd → Nat
  | exit code => code
  | broken _ => 1
  | misused _ => 2

/-- What a command works on: the site, what has been shown and written so far, the level of the log,
and the notices. -/
structure Desk where
  site : Site
  printed : Array Printed
  /-- What has been written for other programs to read. -/
  written : String
  level : LogLevel
  notices : Array Notice

/-- A desk at which nothing has been done. -/
def Desk.start (site : Site) : Desk := ⟨site, #[], "", .warning, #[]⟩

/-- A command: steps at a desk, which may end early. -/
abbrev Script := ExceptT CommandEnd (StateM Desk)

namespace Script

/-- Shows something. -/
def display (channel : Channel) (block : Block) : Script Unit :=
  modify fun d => { d with printed := d.printed.push ⟨channel, block⟩ }

/-- Shows a marked-up text. -/
def print (text : String) : Script Unit := display .output (.markup text)

/-- Shows a marked-up text where errors are shown. -/
def printError (text : String) : Script Unit := display .error (.markup text)

/-- Writes a line. -/
def writeLine (line : String) : Script Unit :=
  modify fun d => { d with written := d.written ++ line ++ "\n" }

/-- Ends the command. -/
def exit {α : Type} (code : Nat) : Script α := throw (.exit code)

/-- The value of a step that the command expects to succeed. -/
def require {α : Type} : Except Defect α → Script α
  | .ok a => pure a
  | .error d => throw (.broken d)

/-- The site. -/
def site : Script Site := return (← get).site

/-- Changes the site. -/
def setSite (s : Site) : Script Unit := modify fun d => { d with site := s }

end Script

/-- What a command leaves behind beside the site. -/
structure CommandReport where
  ending : CommandEnd
  printed : List Printed
  written : String
  level : LogLevel
  notices : List Notice

/-- The report of a script, and the site after it. -/
def Script.report (script : Script Unit) (site : Site) : CommandReport × Site :=
  let (ending, d) := script.run (Desk.start site)
  let ending := match ending with
    | .ok () => .exit 0
    | .error e => e
  (⟨ending, d.printed.toList, d.written, d.level, d.notices.toList⟩, d.site)

end Workgraph
