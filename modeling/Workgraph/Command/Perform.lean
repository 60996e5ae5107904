import Workgraph.Command.Help
import Workgraph.Command.Invocation
import Workgraph.Command.Report
import Workgraph.Command.WorkflowFile
import Workgraph.Display.Drawing
import Workgraph.Graph.Check
import Workgraph.History.Schema
/-!
# Commands

What the commands do. They work in a folder, which is also that of the project: its settings and its
database are looked for there.
-/

namespace Workgraph

/-- The lines of the settings that a new project starts with. -/
def Settings.templateLines : List String :=
  ["# nodeflow configuration for this project",
    "",
    "# Hard cap on loop iterations when a loop node sets no maxIterations",
    "max_iterations: 1000",
    "",
    "# Outbound HTTP (api_call nodes)",
    "http_timeout: 30",
    "default_headers:",
    "  Content-Type: application/json",
    "",
    "# SQLite file holding entity records and run history",
    "database_path: .nodeflow/state.db",
    "",
    "# Entities available to database_query nodes",
    "entities: []",
    "",
    "# Record every run in the history table",
    "record_history: true",
    "",
    "log_level: INFO"]

/-- The settings that a new project starts with. -/
def Settings.template : String := String.join (Settings.templateLines.map (· ++ "\n"))

/-- The name of the database of a new project. -/
def Settings.databaseName : String := "state.db"

namespace Command

/-! ## The project -/

/-- The settings of a folder. -/
def findSettings (folder : String) : Script Settings := do
  let file := Settings.fileOf none folder
  match Settings.load file ((← Script.site).text? file) with
  | .ok settings => return settings
  | .error (.defect cause) => throw (.broken cause)
  | .error f =>
    Script.printError ("[red]Config error:[/red] " ++ Markup.escape f.message)
    Script.exit 1

/-- Opens a database of a name. -/
def openArchive (folder name : String) : Script String := do
  Script.setSite (← Script.require ((← Script.site).openArchive folder name))
  return FileName.resolve folder name

/-- Sets up a project. -/
def setUp (folder : String) : Script Unit := do
  let home := FileName.join folder Settings.folderName
  let file := FileName.join home Settings.fileName
  if (← Script.site).has file then
    Script.print "[yellow]Project already initialized[/yellow]"
  else
    Script.require ((← Script.site).checkFolder folder home)
    modify fun d => { d with site := { d.site with
      files := d.site.files.set file Settings.template } }
    let _ ← openArchive folder (FileName.join home Settings.databaseName)
    Script.display .output (.panel "nodeflow Initialized"
      ("[green]Project initialized![/green]\n\nCreated: " ++ home ++
        "\n- config.yaml: Engine configuration\n- state.db: Entity records and run history"))

/-! ## Workflow files -/

/-- The text of a file. -/
def readText (folder file : String) : Script String := do
  match (← Script.site).text? (FileName.resolve folder file) with
  | some text => return text
  | none => throw (.broken (.raised "UnicodeDecodeError" "invalid start byte"))

/-- The workflow of a file. -/
def readWorkflow (folder file : String) : Script WorkflowFile := do
  match WorkflowFile.ofText file (← readText folder file) with
  | .ok w => return w
  | .error (.defect cause) => throw (.broken cause)
  | .error f =>
    Script.printError ("[red]Error:[/red] " ++ Markup.escape f.message)
    Script.exit 1

/-- Shows the warnings about a workflow. -/
def printWarnings (warnings : List String) : Script Unit :=
  warnings.forM fun w => Script.print ("[yellow]• " ++ Markup.escape w ++ "[/]")

/-- Shows the errors of a workflow. -/
def printErrors (errors : List String) : Script Unit :=
  errors.forM fun e => Script.print ("  [red]• " ++ Markup.escape e ++ "[/]")

/-- Checks a workflow without running it. -/
def check (folder file : String) : Script Unit := do
  let w ← readWorkflow folder file
  let found ← Script.require (findings (.list w.nodes))
  printWarnings found.warnings
  if found.errors.isEmpty then
    Script.print ("[green]✓ Workflow is valid[/green] (" ++ digitsText w.nodes.length ++ " nodes)")
  else
    Script.print "[red]Validation errors:[/red]"
    printErrors found.errors
    Script.exit 1

/-- Draws a graph. -/
def draw (g : Graph) (title : String) : Drawing → Script Unit
  | .levels => Script.print (g.layerText Marks.none)
  | .tree => do
    let tree ← Script.require (g.drawn Marks.none Graph.standardDepth title)
    Script.display .output (.tree tree)

/-- Shows names after a heading. -/
def printNames (heading : String) (names : List String) : Script Unit :=
  Script.print ("[bold]" ++ heading ++ ":[/] " ++ ", ".intercalate (names.map Markup.escape))

/-- Draws a workflow, if its nodes fit, and shows what is found in it. -/
def visualizeFile (folder file : String) (drawing : Drawing) : Script Unit := do
  let w ← readWorkflow folder file
  let found ← Script.require (findings (.list w.nodes))
  match ← Script.require (Graph.ofValue (.list w.nodes)) with
  | .misfits _ => pure ()
  | .fits g =>
    match g.nodes with
    | [] => pure ()
    | entry :: _ =>
      draw g (FileName.stem file) drawing
      Script.print ""
      Script.print ("[bold]Nodes:[/] " ++ digitsText g.nodes.length)
      printNames "Entry" [entry.id]
      printNames "Main path" (g.roots.map Node.id)
      printNames "Terminal nodes" (sortTexts g.terminals)
  printWarnings found.warnings
  if found.errors.isEmpty then Script.print "\n[green]✓ Graph is valid[/]"
  else
    Script.print "\n[red bold]Validation Errors:[/]"
    printErrors found.errors

/-! ## Runs -/

/-- The variables to start with: those of the workflow file, then those of a file of their own, then
those of the command line. -/
def startContext (folder : String) (o : RunOptions) (initial : Context) : Script Context := do
  let given : Except ContextFault Context ← match o.contextFile with
    | none => pure (.ok [])
    | some file => pure (Context.ofFile file (← readText folder file))
  let added : Except ContextFault Context := do
    return Entries.merge (initial.merge (← given)) (← Context.ofJson (o.context.getD ""))
  match added with
  | .ok context => return context
  | .error f =>
    Script.printError ("[red]Invalid context:[/red] " ++ Markup.escape f.message)
    Script.exit 1

/-- Ends a run that has failed with some words. -/
def failRun {α : Type} (o : RunOptions) (words : String) (shown : Script Unit) : Script α := do
  if o.asJson then
    Script.writeLine (Json.write Json.spaced (.object [("error", .text words)]))
  else shown
  Script.exit 1

/-- The text of a value, which must not hold a long integer. -/
def textOf (style : Json.Style) (v : Value) : Script String := do
  if v.hasLongInteger then throw (.broken .longInteger)
  return Json.write style v

/-- Shows the variables that a run has ended with. -/
def showContext (context : Context) : Script Unit := do
  Script.display .output (.panel "Final context" (← textOf Json.indentedText (.object context)))

/-- Shows a trace. -/
def showTrace (channel : Channel) (trace : List (Entries Value)) (g : Option Graph)
    (title : String) (failed : Bool) : Script Unit := do
  Script.display channel (.table (← Script.require (Table.ofTrace trace g title failed)))

/-- Shows a run that has ended well. -/
def showSuccess (o : RunOptions) (nodes : Value) (outcome : WorkflowOutcome) (context : Context) :
    Script Unit := do
  if o.asJson then
    Script.writeLine (← textOf Json.indented (runResponse context outcome.trace))
  else
    let g := match Graph.ofValue nodes with
      | .ok (.fits g) => some g
      | _ => none
    showTrace .output (Engine.traceValues outcome.trace) g Table.traceTitle false
    showContext context
    if let some id := outcome.runId then Script.print ("[dim]Recorded as " ++ id ++ "[/dim]")
    Script.print "[green]Workflow completed successfully[/green]"

/-- Shows what came of a run. -/
def showOutcome (o : RunOptions) (nodes : Value) (outcome : WorkflowOutcome) : Script Unit := do
  match outcome.result with
  | .completed context => showSuccess o nodes outcome context
  | .failed (.defect d) => throw (.broken d)
  | .failed fault =>
    failRun o fault.message do
      Script.printError ("[red]Workflow failed:[/red] " ++ Markup.escape fault.message)
      if !outcome.trace.isEmpty then
        showTrace .error (Engine.traceValues outcome.trace) none "Partial trace" true
  | .timedOut =>
    let words := "Workflow timed out after " ++ (o.timeout.map realText).getD "" ++ "s"
    failRun o words (Script.printError ("[red]" ++ words ++ "[/red]"))

/-- Runs the workflow of a file. -/
def runFile (host : Host) (folder : String) (level : Option LogLevel) (o : RunOptions) :
    Script Unit := do
  let settings ← findSettings folder
  let level ← match level with
    | some level => pure level
    | none => Script.require (LogLevel.ofWord settings.logLevel)
  modify fun d => { d with level }
  let w ← readWorkflow folder o.file
  let context ← startContext folder o w.initialContext
  let file ← openArchive folder settings.databasePath
  let site := (← Script.site).register file settings.entities
  let deadline := o.timeout.filter fun seconds => !seconds.isZero
  let (outcome, after) := (host.engine settings).execute (.list w.nodes) deadline context
    (site.session file (settings.recordHistory && !o.unrecorded))
  modify fun d => { d with
    site := site.afterSession file after
    notices := d.notices ++ after.scene.world.notices }
  showOutcome o (.list w.nodes) outcome

/-! ## History -/

/-- Shows a run of the history. -/
def showRun (r : RunRecord) : Script Unit := do
  let failed := r.status = .failed
  let error := match r.error with
    | some e => if e = "" then "-" else Markup.escape e
    | none => "-"
  Script.display .output (.panel ("Run: " ++ Markup.escape r.id)
    ("[bold]Status:[/] " ++ Markup.styled (if failed then "red" else "green") r.status.name ++
      "\n[bold]Started:[/] " ++ r.startedAt.isoText ++
      "\n[bold]Duration:[/] " ++ Table.millisecondsText r.duration ++
      "\n[bold]Error:[/] " ++ error))
  showTrace .output r.executionLog none Table.traceTitle failed
  match r.finalContext with
  | some context => showContext context
  | none => pure ()

/-- Shows the latest runs of a history, or one of its runs. -/
def showHistory (folder : String) (runId : Option String) (limit : Int) : Script Unit := do
  let settings ← findSettings folder
  if (← Script.site).has (FileName.resolve folder settings.databasePath) then
    let file ← openArchive folder settings.databasePath
    let history := ((← Script.site).archive file).history
    match runId with
    | none =>
      let runs ← Script.require (history.listUpTo limit)
      if runs.isEmpty then Script.print "[dim]No runs recorded yet[/dim]"
      else Script.display .output (.table (Table.ofRuns runs))
    | some id =>
      match history.find? id with
      | some r => showRun r
      | none =>
        Script.print ("[red]Run '" ++ Markup.escape id ++ "' not found[/]")
        Script.exit 1
  else
    Script.print
      "[yellow]No nodeflow database found. Run 'nodeflow init' first.[/yellow]"

/-! ## All commands -/

/-- Shows the version of the program. -/
def showVersion : Script Unit := do
  Script.print "nodeflow v0.1.0"
  Script.print "Node-graph workflow execution engine"

/-- Performs a command in a folder. -/
def perform (host : Host) (folder : String) (level : Option LogLevel) : Command → Script Unit
  | init => setUp folder
  | validate file => check folder file
  | visualize file drawing => visualizeFile folder file drawing
  | run o => runFile host folder level o
  | history runId limit => showHistory folder runId limit
  | version => showVersion

end Command

/-- Does what a command line asks for in a folder. -/
def Invocation.script (host : Host) (folder : String) (line : List String) : Script Unit := do
  let site ← Script.site
  match Invocation.ofWords (fun file => site.hasFile (FileName.resolve folder file)) line with
  | .error m => throw (.misused m)
  | .ok (.perform command level) => command.perform host folder level
  | .ok .version => Script.writeLine "main, version 0.1.0"
  | .ok (.help name) =>
    let help := match name with
      | some name => Command.Help.ofCommand name
      | none => Command.Help.ofProgram
    help.lines.forM Script.writeLine

/-- The report of a command line in a folder of a site, and the site after it. -/
def Site.command (host : Host) (folder : String) (line : List String) (s : Site) :
    CommandReport × Site :=
  (Invocation.script host folder line).report s

end Workgraph
