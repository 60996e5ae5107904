import Workgraph.Main
import Workgraph.Service.Origins
import Workgraph.Service.Service
import Workgraph.Store.Column
import Workgraph.Proofs.Entries
import Workgraph.Proofs.Graph.CycleSearch
import Workgraph.Proofs.Graph.Loading
import Workgraph.Proofs.Graph.LongIds
import Workgraph.Proofs.Graph.CycleReport
import Workgraph.Proofs.Schema.Reasons
import Workgraph.Proofs.Engine.Happening
import Workgraph.Proofs.Engine.Nesting
import Workgraph.Proofs.Engine.Telling
import Workgraph.Proofs.Engine.Family
import Workgraph.Proofs.Engine.Instant
import Workgraph.Proofs.Engine.Cost
import Workgraph.Proofs.Engine.Progress
import Workgraph.Proofs.Engine.Budget
import Workgraph.Proofs.Engine.Moves
import Workgraph.Proofs.Engine.Standing
import Workgraph.Proofs.Engine.Endings
import Workgraph.Proofs.Engine.Parts
import Workgraph.Proofs.Engine.Cleanup
import Workgraph.Proofs.Engine.Blame
import Workgraph.Proofs.Engine.Failure
import Workgraph.Proofs.Engine.Lookup
import Workgraph.Proofs.Store.Shelf
import Workgraph.Proofs.Engine.Separation
import Workgraph.Proofs.Engine.Interleaving
import Workgraph.Proofs.Engine.Refinement
import Workgraph.Proofs.Engine.Logs
import Workgraph.Proofs.Engine.Words
import Workgraph.Proofs.Engine.Turns
import Workgraph.Proofs.Engine.Bounds
import Workgraph.Proofs.Engine.Frame
import Workgraph.Proofs.Engine.Attribution
import Workgraph.Proofs.Graph.Answering
import Workgraph.Proofs.Graph.Reaching
import Workgraph.Proofs.Display.Escaping
import Workgraph.Proofs.Display.Tags
import Workgraph.Proofs.Display.Labels
import Workgraph.Proofs.Display.References
import Workgraph.Proofs.Graph.Paths
import Workgraph.Proofs.Schema.Locating
import Workgraph.Proofs.Graph.Misfits
import Workgraph.Proofs.Display.Layers
import Workgraph.Proofs.Display.Sketch
import Workgraph.Proofs.Display.Unfolding
import Workgraph.Proofs.Number.Rounding
import Workgraph.Proofs.Number.Nearest
import Workgraph.Proofs.Number.DigitText
import Workgraph.Proofs.Value.Distinct
import Workgraph.Proofs.Value.Numeral
import Workgraph.Proofs.Value.Comparing
import Workgraph.Proofs.Value.StringText
import Workgraph.Proofs.Value.RoundTrip
import Workgraph.Proofs.Store.Interchange
import Workgraph.Proofs.Calendar.TextOrder
import Workgraph.Proofs.History.Listing
import Workgraph.Proofs.History.Recording
import Workgraph.Proofs.History.Rows
import Workgraph.Proofs.History.Table
import Workgraph.Proofs.Service.Execution
import Workgraph.Proofs.Text.Classes
import Workgraph.Proofs.Text.Split
import Workgraph.Proofs.Arithmetic.Grammar
import Workgraph.Proofs.Arithmetic.Parsing
import Workgraph.Proofs.Arithmetic.Cursor
import Workgraph.Proofs.Arithmetic.Layout
import Workgraph.Proofs.Arithmetic.Spelling
import Workgraph.Proofs.Arithmetic.Failing
import Workgraph.Proofs.Store.Identity
import Workgraph.Proofs.Store.Race
import Workgraph.Proofs.Store.Addressing
import Workgraph.Proofs.Value.Ordering
import Workgraph.Proofs.Value.Walk
import Workgraph.Proofs.Template
import Workgraph.Proofs.Transform.Rounding
import Workgraph.Proofs.Calendar.Dates
import Workgraph.Proofs.Calendar.Reading
import Workgraph.Proofs.Calendar.Stamps
import Workgraph.Proofs.Number.Quotients
import Workgraph.Proofs.Calendar.EpochTime
import Workgraph.Proofs.Transform.Dates
import Workgraph.Proofs.Transform.Milliseconds
