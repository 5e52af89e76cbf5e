import SolidityLint.Library
import SolidityLint.Analysis.Basic
import SolidityLint.Analysis.Document
import SolidityLint.Ast.Decode
import SolidityLint.Ast.Outline
import SolidityLint.Ast.Views
import SolidityLint.Cli.Run
import SolidityLint.Config.Load
import SolidityLint.Docs.Generate
import SolidityLint.FileTree.Replace
import SolidityLint.FileTree.Snapshot
import SolidityLint.FrontEnd.Foundry
import SolidityLint.FrontEnd.Solc
import SolidityLint.Library.Glob.Matcher
import SolidityLint.Library.Language.Solidity
import SolidityLint.Lint.Engine
import SolidityLint.Main
import SolidityLint.Library.Markdown.Html
import SolidityLint.Proofs.Ast.Coverage
import SolidityLint.Proofs.Lint.Aggregation
import SolidityLint.Proofs.Lint.SeverityCounts
import SolidityLint.Proofs.Position.Coordinates
import SolidityLint.Proofs.Position.LineIndex
import SolidityLint.Proofs.Run.Failure
import SolidityLint.Proofs.Run.Look
import SolidityLint.Proofs.Run.Statistics
import SolidityLint.Proofs.Source.Blanking
import SolidityLint.Proofs.Source.HeaderWords
import SolidityLint.Report.Basic
import SolidityLint.Rules.Catalog
import SolidityLint.Run.Watch
import SolidityLint.Source.Header
import SolidityLint.Library.Yaml.Parser
import SolidityLint.Library.Yaml.Printer
import SolidityLint.Proofs.Json.SortedKeys
import SolidityLint.Proofs.Lint.Schedule
import SolidityLint.Proofs.Lint.Sessions
import SolidityLint.Proofs.Run.Memory
import SolidityLint.Proofs.Run.Repetition
import SolidityLint.Proofs.FrontEnd.Rebuild
import SolidityLint.Proofs.Rules.Builtin
import SolidityLint.Proofs.Config.Precedence
import SolidityLint.Proofs.Run.Outcomes
import SolidityLint.Proofs.Report.Agreement
import SolidityLint.Proofs.Position.Order
import SolidityLint.Proofs.Ast.Nesting
import SolidityLint.Proofs.Rules.DocumentOrder
import SolidityLint.Proofs.Rules.Placement
import SolidityLint.Proofs.Source.HeaderPlaces
import SolidityLint.Proofs.Lint.History
import SolidityLint.Proofs.Ast.Shape
import SolidityLint.Proofs.Lint.DiagnosticText
import SolidityLint.Proofs.Config.RuleSetText
import SolidityLint.Proofs.Analysis.Views
import SolidityLint.Proofs.Json.Grammar
import SolidityLint.Proofs.Json.FirstValue
import SolidityLint.Proofs.FileTree.Regular
import SolidityLint.Proofs.Run.Discovery
import SolidityLint.Proofs.Library.Glob.Meaning
import SolidityLint.Proofs.Ignore.Coverage
import SolidityLint.Proofs.Run.Pruning
import SolidityLint.Proofs.Ignore.Loading
import SolidityLint.Proofs.Run.IgnoreFile
import SolidityLint.Proofs.Ast.Traversal
import SolidityLint.Proofs.Lint.Suppression
import SolidityLint.Proofs.Source.NodesAt
import SolidityLint.Proofs.Position.Correspondence
import SolidityLint.Proofs.Position.SpanText
import SolidityLint.Proofs.Ast.SourceOrder
import SolidityLint.Proofs.Position.Length
import SolidityLint.Proofs.Source.WordSpans
import SolidityLint.Proofs.Ast.Removal
import SolidityLint.Proofs.Rules.Layout
import SolidityLint.Proofs.Rules.VisibilityOrder
import SolidityLint.Proofs.Rules.SharedNames
import SolidityLint.Proofs.Text.Bytes
import SolidityLint.Proofs.Rules.NestedMappings
import SolidityLint.Proofs.Library.Text.Width
import SolidityLint.Proofs.Report.FileCells
import SolidityLint.Proofs.Path.Inside
import SolidityLint.Proofs.FileTree.WalkOrder
import SolidityLint.Proofs.Ignore.ReadOrder
import SolidityLint.Proofs.Ignore.Precedence
import SolidityLint.Proofs.Ignore.PatternLines
import SolidityLint.Proofs.Config.NearestFile
import SolidityLint.Proofs.Run.Watching
import SolidityLint.Proofs.FileTree.Location
import SolidityLint.Proofs.FileTree.Replace
import SolidityLint.Proofs.Cli.Init
import SolidityLint.Proofs.FrontEnd.ArtifactIndex
import SolidityLint.Proofs.Lint.Registry
import SolidityLint.Proofs.Report.Sarif
import SolidityLint.Proofs.Report.TableRows
import SolidityLint.Proofs.Report.MarkerLine
import SolidityLint.Proofs.Docs.Fence
