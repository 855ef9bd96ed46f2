import DeclIndex.Main
import DeclIndex.Proofs.Pattern.Takes
import DeclIndex.Proofs.Rule.Pieces
import DeclIndex.Proofs.Rule.Functions
import DeclIndex.Proofs.Rule.Classes
import DeclIndex.Proofs.Declarations.LineOrder
import DeclIndex.Proofs.FileSystem.Queries
import DeclIndex.Proofs.Walk.Admitted
import DeclIndex.Proofs.Walk.Exact
import DeclIndex.Proofs.Scan.Workers
import DeclIndex.Proofs.Path.Names
import DeclIndex.Proofs.Rule.Captures
import DeclIndex.Proofs.Walk.Order
import DeclIndex.Proofs.Walk.Scope
import DeclIndex.Proofs.Walk.Queue
import DeclIndex.Proofs.Declarations.Records
import DeclIndex.Proofs.Scan.Outcome
import DeclIndex.Proofs.Scan.Records
import DeclIndex.Proofs.Ignore.Below
import DeclIndex.Proofs.FileSystem.Steps
import DeclIndex.Proofs.Walk.Pruning
import DeclIndex.Proofs.Ignore.Components
import DeclIndex.Proofs.Ignore.Forms
import DeclIndex.Proofs.Walk.Selection
import DeclIndex.Proofs.Ignore.Negation
import DeclIndex.Proofs.FileSystem.Resolution
import DeclIndex.Proofs.Scan.Contributions
import DeclIndex.Proofs.Scan.SingleFile
import DeclIndex.Proofs.Scan.Depth
import DeclIndex.Proofs.FileSystem.Shape
import DeclIndex.Proofs.Scan.Isolation
import DeclIndex.Proofs.Scan.Failures
import DeclIndex.Proofs.Console.Standard
import DeclIndex.Proofs.CommandLine.Failures
import DeclIndex.Proofs.Json.Reader
import DeclIndex.Proofs.Json.Reading
import DeclIndex.Proofs.Tool.Writing
import DeclIndex.Proofs.Tool.Answer
import DeclIndex.Proofs.Tool.Rendering
import DeclIndex.Proofs.Scan.TestedPaths
import DeclIndex.Proofs.Declarations.FirstHits
import DeclIndex.Proofs.Ignore.Trimming
import DeclIndex.Proofs.Json.Characters
import DeclIndex.Proofs.CommandLine.Agreement
import DeclIndex.Proofs.Declarations.RuleOrder
import DeclIndex.Proofs.Declarations.Padding
import DeclIndex.Proofs.Declarations.Appending
import DeclIndex.Proofs.Text.Breaks
import DeclIndex.Proofs.Source.Decoding
import DeclIndex.Proofs.Path.Relative
import DeclIndex.Proofs.Ignore.Writing
import DeclIndex.Proofs.Table.Grouping
import DeclIndex.Proofs.Table.Shown
