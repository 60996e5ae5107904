import Workgraph.Command.Report
/-!
# Lines of reports

What a command has shown, as plain lines for a terminal without styles.
-/

namespace Workgraph

mutual

/-- The lines of a tree, further in for each level. -/
def Outline.lines (margin : String) : Outline → List String
  | .branch label children => (margin ++ label) :: Outline.linesOf (margin ++ "  ") children

/-- The lines of several trees. -/
def Outline.linesOf (margin : String) : List Outline → List String
  | [] => []
  | o :: rest => Outline.lines margin o ++ Outline.linesOf margin rest

end

/-- The lines of a table. -/
def Table.lines (t : Table) : List String :=
  t.title :: (t.columns :: t.rows).map fun row => " | ".intercalate row

/-- The lines of something that is shown. -/
def Block.lines : Block → List String
  | .markup text => [text]
  | .table t => t.lines
  | .tree o => o.lines ""
  | .panel title text => [title, text]

/-- The line about an ending that the command does not report itself. -/
def CommandEnd.line? : CommandEnd → Option String
  | .exit _ => none
  | .broken cause => some (cause.name ++ ": " ++ cause.message)
  | .misused misuse => some ("Error: " ++ misuse.message)

end Workgraph
