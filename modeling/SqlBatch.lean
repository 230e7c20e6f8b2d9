import SqlBatch.Files.Tree
import SqlBatch.Main
import SqlBatch.Stream
import SqlBatch.Proofs.Scanner.Nesting
import SqlBatch.Proofs.Scanner.Boundaries
import SqlBatch.Proofs.Scanner.RoundTrip
import SqlBatch.Proofs.Stream
import SqlBatch.Proofs.Scanner.Kinds
import SqlBatch.Proofs.Scanner.Commented
import SqlBatch.Proofs.Scanner.Resplit
import SqlBatch.Proofs.Scanner.WellFormed
import SqlBatch.Proofs.Plan
import SqlBatch.Proofs.Plan.Statements
import SqlBatch.Proofs.Plan.Entries
import SqlBatch.Proofs.Scanner.Locality
import SqlBatch.Proofs.Scanner.Opacity
import SqlBatch.Proofs.Plan.Sources
import SqlBatch.Proofs.Grammar.Check
import SqlBatch.Proofs.Report
import SqlBatch.Proofs.Scanner.OpenBlocks
import SqlBatch.Proofs.Plan.Inline
import SqlBatch.Proofs.Comment.LastMark
import SqlBatch.Proofs.Scanner.Layout
import SqlBatch.Proofs.Run
import SqlBatch.Proofs.Run.Limit
import SqlBatch.Proofs.Diagnostic.Location
import SqlBatch.Proofs.Scanner.ClosedBlocks
import SqlBatch.Proofs.Report.Json
import SqlBatch.Proofs.Routine.Counts
