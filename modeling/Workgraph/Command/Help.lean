import Workgraph.Command.Invocation
/-!
# Help

Words about the program and its commands: how they are called, what they do, and their options.
-/

namespace Workgraph.Command

/-- Help in lines: a usage, a text, and what can be given. -/
structure Help where
  usage : String
  text : List String
  /-- Options with what they mean, in one or more lines. -/
  options : List (String × List String)
  /-- Commands with what they do. -/
  commands : List (String × List String)

namespace Help

/-- The option to ask for help. -/
def helpOption : String × List String := ("--help", ["Show this message and exit."])

/-- What the commands do. -/
def summaries : List (String × List String) :=
  [("history", ["Show recorded runs, or one run in detail."]),
    ("init", ["Initialize project for nodeflow."]),
    ("run", ["Execute a workflow file."]),
    ("validate", ["Check a workflow file for errors without running it."]),
    ("version", ["Show version information."]),
    ("visualize", ["Visualize a workflow graph in the terminal."])]

/-- The help about the program. -/
def ofProgram : Help where
  usage := "main [OPTIONS] COMMAND [ARGS]..."
  text :=
    ["nodeflow - node-graph workflow execution engine.", "",
      "Runs workflows made of typed nodes (condition, loop, parallel, api_call,",
      "database_query, data_transform, filter, delay) and prints the final context",
      "plus the execution trace."]
  options :=
    [("--version", ["Show the version and exit."]),
      ("--log-level [debug|info|warning|error]",
        ["Log level (default: from config.yaml or", "INFO)"]), helpOption]
  commands := summaries

/-- The operands and the options of a command. -/
def partsOf (name : String) : List String × List (String × List String) :=
  match name with
  | "validate" => (["WORKFLOW_FILE"], [])
  | "visualize" =>
    (["WORKFLOW_FILE"], [("--layout [tree|levels]",
      ["tree: one branch per reference; levels: nodes", "grouped by depth"])])
  | "run" =>
    (["WORKFLOW_FILE"],
      [("--context TEXT", ["Initial context as a JSON object"]),
        ("--context-file FILE", ["Initial context from a JSON or YAML file"]),
        ("--timeout FLOAT", ["Abort the run after N seconds"]),
        ("--json", ["Print the raw response as JSON"]),
        ("--no-history", ["Do not record this run"])])
  | "history" => (["[RUN_ID]"], [("-n, --limit INTEGER", ["Number of runs to list"])])
  | _ => ([], [])

/-- More about what a command does. -/
def detailsOf (name : String) : List String :=
  match name with
  | "run" =>
    ["", "WORKFLOW_FILE is a YAML or JSON file holding a node list, or a mapping with",
      "'nodes' and an optional 'initialContext'.", "",
      "Example:     nodeflow run workflows/score.yaml --context '\x7b\"score\": 75\x7d'"]
  | _ => []

/-- The help about a command. -/
def ofCommand (name : String) : Help :=
  let (operands, options) := partsOf name
  { usage := " ".intercalate (["main", name, "[OPTIONS]"] ++ operands)
    text := ((summaries.find? fun s => s.1 = name).map Prod.snd).getD [] ++ detailsOf name
    options := options ++ [helpOption]
    commands := [] }

/-- The widest first column that is not cut off from the second. -/
def maxColumn : Nat := 30

/-- The lines of an entry of a list with two columns. A wide first column stands alone. -/
def entryLines (column : Nat) (first : String) (second : List String) : List String :=
  let blank (n : Nat) : String := String.ofList (List.replicate n ' ')
  let indented := second.map fun line => blank (column + 4) ++ line
  if first.length ≤ column then
    match second with
    | [] => ["  " ++ first]
    | line :: _ =>
      ("  " ++ first ++ blank (column + 2 - first.length) ++ line) :: indented.drop 1
  else ("  " ++ first) :: indented

/-- The lines of a section with entries. -/
def sectionLines (title : String) (entries : List (String × List String)) : List String :=
  let column := min maxColumn ((entries.map fun e => e.1.length).foldl max 0)
  if entries.isEmpty then []
  else ["", title ++ ":"] ++ entries.flatMap fun e => entryLines column e.1 e.2

/-- The lines of a help. -/
def lines (h : Help) : List String :=
  ["Usage: " ++ h.usage, ""] ++ (h.text.map fun line => if line = "" then "" else "  " ++ line) ++
    sectionLines "Options" h.options ++ sectionLines "Commands" h.commands

end Help

end Workgraph.Command
