import TreeLint.Codec.Basic
import TreeLint.Codec.Facts
import TreeLint.Codec.Tree
import TreeLint.CommandLine.Arguments
import TreeLint.CommandLine.Invocation
import TreeLint.CommandLine.Run
import TreeLint.Configuration
import TreeLint.Configuration.Discovery
import TreeLint.Decimal
import TreeLint.Document
import TreeLint.Excludes
import TreeLint.FilePath
import TreeLint.FileSystem
import TreeLint.Fixing
import TreeLint.Glob
import TreeLint.Json.Parse
import TreeLint.Json.Print
import TreeLint.Json.Token
import TreeLint.Json.Value
import TreeLint.LineDiff
import TreeLint.Proofs.AddedFacts
import TreeLint.Proofs.AddedLevels
import TreeLint.Proofs.BareReturns
import TreeLint.Proofs.BatchFixes
import TreeLint.Proofs.BatchesAlike
import TreeLint.Proofs.Builtin
import TreeLint.Proofs.ChildSlots
import TreeLint.Proofs.Children
import TreeLint.Proofs.Convergence
import TreeLint.Proofs.Desugaring
import TreeLint.Proofs.DirectoryRuns
import TreeLint.Proofs.FileWrites
import TreeLint.Proofs.FinalReturn
import TreeLint.Proofs.Findings
import TreeLint.Proofs.FindingsWithText
import TreeLint.Proofs.FirstOccurrence
import TreeLint.Proofs.FirstViolation
import TreeLint.Proofs.FixCounts
import TreeLint.Proofs.FixFailures
import TreeLint.Proofs.FixSteps
import TreeLint.Proofs.FixingInPasses
import TreeLint.Proofs.FixingRuns
import TreeLint.Proofs.JsonText
import TreeLint.Proofs.JsonWords
import TreeLint.Proofs.KeptBelow
import TreeLint.Proofs.LastFacts
import TreeLint.Proofs.Location
import TreeLint.Proofs.NestedReplacement
import TreeLint.Proofs.Nesting
import TreeLint.Proofs.NestingPreserved
import TreeLint.Proofs.OverlapPolicies
import TreeLint.Proofs.Passes
import TreeLint.Proofs.PathComponents
import TreeLint.Proofs.PathOrder
import TreeLint.Proofs.Persistence
import TreeLint.Proofs.Places
import TreeLint.Proofs.PrunedSearch
import TreeLint.Proofs.QuotedText
import TreeLint.Proofs.RepeatedRuns
import TreeLint.Proofs.ReplacementBatches
import TreeLint.Proofs.Replacing
import TreeLint.Proofs.ReportedFixes
import TreeLint.Proofs.Reports
import TreeLint.Proofs.Rereading
import TreeLint.Proofs.Restated
import TreeLint.Proofs.Reviewing
import TreeLint.Proofs.RunCounts
import TreeLint.Proofs.SearchStops
import TreeLint.Proofs.SelectedRules
import TreeLint.Proofs.Selection
import TreeLint.Proofs.Siblings
import TreeLint.Proofs.Signatures
import TreeLint.Proofs.Simultaneous
import TreeLint.Proofs.SingleFixes
import TreeLint.Proofs.SpelledLeaves
import TreeLint.Proofs.StoredDocuments
import TreeLint.Proofs.StoredFields
import TreeLint.Proofs.StoredTrees
import TreeLint.Proofs.Substitution
import TreeLint.Proofs.Traversal
import TreeLint.Proofs.TryForm
import TreeLint.Proofs.UniqueReading
import TreeLint.Proofs.VisitOrder
import TreeLint.Proofs.WrittenDocuments
import TreeLint.Proofs.WrittenFiles
import TreeLint.Registry
import TreeLint.Report.Basic
import TreeLint.Report.Text
import TreeLint.Rule.Basic
import TreeLint.Rule.TryMethod
import TreeLint.Rule.ValueEquality
import TreeLint.RuleSelection
import TreeLint.Span
import TreeLint.Syntax.Kind
import TreeLint.Syntax.Nesting
import TreeLint.Syntax.Node
import TreeLint.Syntax.Path
import TreeLint.Syntax.Rendering
import TreeLint.Syntax.Shape
import TreeLint.Syntax.Substitution
import TreeLint.Syntax.Vocabulary
import TreeLint.Syntax.Walk
import TreeLint.Text.Styled
import TreeLint.Text.Unprintable
import TreeLint.Text.Utf8
import TreeLint.Toml.Parse
import TreeLint.Toml.Scalar
import TreeLint.Toml.Table
import TreeLint.Toml.Text
import TreeLint.TypeTable
import TreeLint.Main
