import ChaseProse.Text.Split
import ChaseProse.Text.Blank
import ChaseProse.Text.Alnum
import ChaseProse.Text.Upper
import ChaseProse.Decimal.Nearest
import ChaseProse.Decimal.Read
import ChaseProse.Decimal.Scaled
import ChaseProse.Decimal.Shortest
import ChaseProse.Decimal.Format
import ChaseProse.Json.Value
import ChaseProse.Json.Write
import ChaseProse.Json.Read
import ChaseProse.Json.Shape
import ChaseProse.Chase.Text
import ChaseProse.Files.Fault
import ChaseProse.Chase.Error
import ChaseProse.Chase.Fact
import ChaseProse.Chase.Pattern
import ChaseProse.Chase.Provenance
import ChaseProse.Chase.Step
import ChaseProse.Json.Number
import ChaseProse.Chase.Wire
import ChaseProse.Chase.Store
import ChaseProse.Rule.Error
import ChaseProse.Rule.Token
import ChaseProse.Rule.Syntax
import ChaseProse.Rule.Parser
import ChaseProse.Log
import ChaseProse.Config
import ChaseProse.Prose.Sentence
import ChaseProse.Notice
import ChaseProse.Numbering
import ChaseProse.Aggregate.Contributors
import ChaseProse.Aggregate.Resolve
import ChaseProse.Prose.Dictionary
import ChaseProse.Prose.Describe
import ChaseProse.Prose.Bindings
import ChaseProse.Prose.Expand
import ChaseProse.Prose.Clause
import ChaseProse.Prose.Engine
import ChaseProse.Files.Path
import ChaseProse.Files.World
import ChaseProse.Files.Temp
import ChaseProse.Files.Document
import ChaseProse.Pipeline
import ChaseProse.Cli.Command
import ChaseProse.Cli.Grammar
import ChaseProse.Cli.Args
import ChaseProse.Cli.Exit
import ChaseProse.Main
import ChaseProse.Proofs.Basic
import ChaseProse.Proofs.Graph
import ChaseProse.Proofs.Numbering.Walk
import ChaseProse.Proofs.Numbering.Labels
import ChaseProse.Proofs.Numbering.Cycle
import ChaseProse.Proofs.Prose.Carried
import ChaseProse.Proofs.Aggregate.Pointwise
import ChaseProse.Proofs.Numbering.Positions
import ChaseProse.Proofs.Chase.TextForms
import ChaseProse.Proofs.Json.ReadBack
import ChaseProse.Proofs.Prose.Records
import ChaseProse.Proofs.Chase.Reread
import ChaseProse.Proofs.Rule.Lexing
import ChaseProse.Proofs.Rule.Compact
import ChaseProse.Proofs.Rule.Shape
import ChaseProse.Proofs.Rule.Reading
import ChaseProse.Proofs.Rule.RoundTrip
import ChaseProse.Proofs.Aggregate.Contributors
import ChaseProse.Proofs.Prose.Unify
import ChaseProse.Proofs.Prose.Expansion
import ChaseProse.Proofs.Files.Atomic
import ChaseProse.Proofs.Pipeline.Outputs
import ChaseProse.Proofs.Chase.FactText
import ChaseProse.Proofs.Chase.Index
import ChaseProse.Proofs.Prose.Negations
import ChaseProse.Proofs.Prose.Substitution
import ChaseProse.Proofs.Chase.TopLevel
import ChaseProse.Proofs.Aggregate.Grouping
