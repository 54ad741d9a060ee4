import Script.Main
import Script.Value.Equality
import Script.Proofs.Token.Reading
import Script.Proofs.Token.Scan
import Script.Proofs.Token.Lexeme
import Script.Proofs.Token.Spelling
import Script.Proofs.Token.Expansion
import Script.Proofs.Token.Writing
import Script.Proofs.Token.Partition
import Script.Proofs.Program.Cursor
import Script.Proofs.Program.Grammar
import Script.Proofs.Program.Soundness
import Script.Proofs.Program.Completeness
import Script.Proofs.Program.Printer
import Script.Proofs.Program.RoundTrip
import Script.Proofs.Program.Twins
import Script.Proofs.Heap.Scope
import Script.Proofs.Evaluation.Keeps
import Script.Proofs.Evaluation.Growth
import Script.Proofs.Session.Constants
import Script.Proofs.Evaluation.Region
import Script.Proofs.Evaluation.Confinement
import Script.Proofs.Evaluation.Locality
import Script.Proofs.Evaluation.Coupling
import Script.Proofs.Evaluation.Limit
import Script.Proofs.Evaluation.Machine
import Script.Proofs.Evaluation.WellFormed
import Script.Proofs.Evaluation.Depth
import Script.Proofs.Evaluation.Simulation
import Script.Proofs.Evaluation.Termination
import Script.Proofs.Session.Depth
import Script.Proofs.Value.Bisimilarity
import Script.Proofs.Program.Recovery
import Script.Proofs.Token.Separation
import Script.Proofs.Program.Sequence
import Script.Proofs.Session.Pieces
import Script.Proofs.Program.Placement
import Script.Proofs.Program.Grouping
import Script.Proofs.Program.Literal
import Script.Proofs.Value.Copies
import Script.Proofs.Value.Rendering
import Script.Proofs.Session.Echo
import Script.Proofs.Evaluation.Output
import Script.Proofs.Token.Target
import Script.Proofs.Number.Truncation
import Script.Proofs.Heap.Slot
import Script.Proofs.Evaluation.Members
import Script.Proofs.Evaluation.Paths
import Script.Proofs.Evaluation.Purity
import Script.Proofs.Program.Origin
import Script.Proofs.Heap.History
import Script.Proofs.Program.Progress
import Script.Proofs.Token.Encoding
import Script.Proofs.Token.Gaps
import Script.Proofs.Token.Comments
import Script.Proofs.Token.Strays
import Script.Proofs.Token.Minus
import Script.Proofs.Token.NormalForm
import Script.Proofs.Program.Texts
import Script.Proofs.Value.Outline
import Script.Proofs.Heap.Journal
import Script.Proofs.Evaluation.Writes
import Script.Proofs.Value.Likeness
import Script.Proofs.Evaluation.Canonical
import Script.Proofs.Value.Walk
