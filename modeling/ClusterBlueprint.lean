import ClusterBlueprint.Fields
import ClusterBlueprint.SortedMap
import ClusterBlueprint.Number.Basic
import ClusterBlueprint.Number.Decimal
import ClusterBlueprint.Text.Hidden
import ClusterBlueprint.Text.Quoted
import ClusterBlueprint.Text.WhiteSpace
import ClusterBlueprint.Text.WordCharacter
import ClusterBlueprint.Fault
import ClusterBlueprint.Fault.Collection
import ClusterBlueprint.ValidationLevel
import ClusterBlueprint.Expression.Lexer
import ClusterBlueprint.Expression.Parser
import ClusterBlueprint.Expression.Printer
import ClusterBlueprint.Expression.Basic
import ClusterBlueprint.Value
import ClusterBlueprint.Literal
import ClusterBlueprint.Evaluation
import ClusterBlueprint.Document.Json
import ClusterBlueprint.Document.Json.Reader
import ClusterBlueprint.Dict
import ClusterBlueprint.Staging
import ClusterBlueprint.Value.Document
import ClusterBlueprint.Variables
import ClusterBlueprint.Blueprint.Basic
import ClusterBlueprint.Catalog
import ClusterBlueprint.Document.Schema
import ClusterBlueprint.Text.Distance
import ClusterBlueprint.Blueprint.Document
import ClusterBlueprint.Blueprint.Backends
import ClusterBlueprint.Blueprint.GroupOrder
import ClusterBlueprint.Blueprint.Labels
import ClusterBlueprint.Blueprint.References
import ClusterBlueprint.Blueprint.Use
import ClusterBlueprint.Blueprint.Expansion
import ClusterBlueprint.Blueprint.Plan
import ClusterBlueprint.Yaml.Schema
import ClusterBlueprint.Yaml.Writer
import ClusterBlueprint.CommandLine
import ClusterBlueprint.Main
import ClusterBlueprint.Proofs.Number.Rounding
import ClusterBlueprint.Proofs.Number.Spelling
import ClusterBlueprint.Proofs.Expression.Canonical
import ClusterBlueprint.Proofs.Expression.Advance
import ClusterBlueprint.Proofs.Expression.Scanning
import ClusterBlueprint.Proofs.Expression.Outcome
import ClusterBlueprint.Proofs.Checked
import ClusterBlueprint.Proofs.Expression.Lexed
import ClusterBlueprint.Proofs.Expression.Parsing
import ClusterBlueprint.Proofs.Expression.Grammar
import ClusterBlueprint.Proofs.Evaluation.Agreement
import ClusterBlueprint.Proofs.Evaluation.Context
import ClusterBlueprint.Proofs.Evaluation.Literal
import ClusterBlueprint.Proofs.SortedMap
import ClusterBlueprint.Proofs.Variables.Search
import ClusterBlueprint.Proofs.Variables.Solution
import ClusterBlueprint.Proofs.Blueprint.Placed
import ClusterBlueprint.Proofs.Variables.Cycles
import ClusterBlueprint.Proofs.Blueprint.Checks
import ClusterBlueprint.Proofs.Blueprint.Wired
import ClusterBlueprint.Proofs.Blueprint.Passes
import ClusterBlueprint.Proofs.StagedFiles
import ClusterBlueprint.Proofs.Expression.Renumbered
import ClusterBlueprint.Proofs.Expression.Reread
import ClusterBlueprint.Proofs.Staging.Splice
import ClusterBlueprint.Proofs.Staging.Tokens
import ClusterBlueprint.Proofs.Staging.Staged
import ClusterBlueprint.Proofs.Staging.Evaluated
import ClusterBlueprint.Proofs.Evaluation.Named
import ClusterBlueprint.Proofs.Literal.Dotted
import ClusterBlueprint.Proofs.Literal.Written
import ClusterBlueprint.Proofs.Literal.Read
import ClusterBlueprint.Proofs.GroupGraph
import ClusterBlueprint.Proofs.GroupGraph.Stacked
import ClusterBlueprint.Proofs.GroupGraph.Sorted
import ClusterBlueprint.Proofs.Blueprint.Outline
import ClusterBlueprint.Proofs.Blueprint.GroupOrder
import ClusterBlueprint.Proofs.Blueprint.DeclaredOrder
import ClusterBlueprint.Proofs.Blueprint.DeclaredOutputs
import ClusterBlueprint.Proofs.Blueprint.Prepared
import ClusterBlueprint.Proofs.Blueprint.StagedSettings
import ClusterBlueprint.Proofs.Literal.Quoted
import ClusterBlueprint.Proofs.Blueprint.Planned
import ClusterBlueprint.Proofs.Expression.Nodes
import ClusterBlueprint.Proofs.Text.Separation
import ClusterBlueprint.Proofs.Location
import ClusterBlueprint.Proofs.Fault.Collection
import ClusterBlueprint.Proofs.Blueprint.Positions
import ClusterBlueprint.Proofs.Blueprint.Uses
import ClusterBlueprint.Proofs.Blueprint.Names
import ClusterBlueprint.Proofs.Blueprint.WellFormed
import ClusterBlueprint.Proofs.Blueprint.LegalReferences
import ClusterBlueprint.Proofs.Expression.Shown
import ClusterBlueprint.Proofs.Evaluation.Mapped
import ClusterBlueprint.Proofs.Staging.Remaining
import ClusterBlueprint.Proofs.Blueprint.StagingCalls
import ClusterBlueprint.Proofs.Blueprint.Kept
import ClusterBlueprint.Proofs.Blueprint.Handed
import ClusterBlueprint.Proofs.Literal.Escaped
import ClusterBlueprint.Proofs.Value.Document
import ClusterBlueprint.Proofs.Expression.Joined
import ClusterBlueprint.Proofs.Expression.Respelled
import ClusterBlueprint.Proofs.Literal.Shortest
import ClusterBlueprint.Proofs.Expression.Enclosed
import ClusterBlueprint.Proofs.Evaluation.Expressed
import ClusterBlueprint.Proofs.Value.Leaves
import ClusterBlueprint.Proofs.Blueprint.Accumulated
import ClusterBlueprint.Proofs.Literal.Parenthesised
import ClusterBlueprint.Proofs.Checked.First
import ClusterBlueprint.Proofs.Blueprint.GlobalSettings
import ClusterBlueprint.Proofs.Fault.Collected
import ClusterBlueprint.Proofs.Evaluation.Ordered
import ClusterBlueprint.Proofs.Blueprint.MergedLabels
import ClusterBlueprint.Proofs.Blueprint.MaterializedBackends
import ClusterBlueprint.Proofs.StagedFiles.Cleaned
import ClusterBlueprint.Proofs.StagedFiles.Destination
import ClusterBlueprint.Proofs.Text.Distance
import ClusterBlueprint.Proofs.Text.Nearest
