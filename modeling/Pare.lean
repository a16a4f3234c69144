import Pare.Command
import Pare.Command.Arguments
import Pare.Concrete.Ast
import Pare.Concrete.Basic
import Pare.Config
import Pare.Data.Json
import Pare.Data.Toml
import Pare.Data.Value
import Pare.Data.Yaml
import Pare.Detection
import Pare.Disk
import Pare.Edit
import Pare.Editor
import Pare.Failure
import Pare.Finding
import Pare.Fix
import Pare.Grammar
import Pare.Grammar.Cursor
import Pare.Grammar.Expression
import Pare.Grammar.Function
import Pare.Grammar.Goal
import Pare.Grammar.Lexeme
import Pare.Grammar.Markup
import Pare.Grammar.Pattern
import Pare.Grammar.Semicolon
import Pare.Grammar.Statement
import Pare.Grammar.Trivia
import Pare.Lint
import Pare.Main
import Pare.Name
import Pare.Path
import Pare.Proofs.ArrowBody
import Pare.Proofs.Boundary
import Pare.Proofs.Braces
import Pare.Proofs.Brackets
import Pare.Proofs.Conditions
import Pare.Proofs.Convergence
import Pare.Proofs.Coverage
import Pare.Proofs.Editing
import Pare.Proofs.Endings
import Pare.Proofs.Exchange
import Pare.Proofs.Extensions
import Pare.Proofs.FindingOrder
import Pare.Proofs.Grouping
import Pare.Proofs.Indexing
import Pare.Proofs.Interleaving
import Pare.Proofs.Layout
import Pare.Proofs.Leaves
import Pare.Proofs.Lexemes
import Pare.Proofs.LineComments
import Pare.Proofs.Lined
import Pare.Proofs.Lookup
import Pare.Proofs.LoopHeads
import Pare.Proofs.Merging
import Pare.Proofs.Narrowing
import Pare.Proofs.Neighbours
import Pare.Proofs.Nesting
import Pare.Proofs.Numbering
import Pare.Proofs.Origins
import Pare.Proofs.Outcome
import Pare.Proofs.Parentheses
import Pare.Proofs.Parts
import Pare.Proofs.Passes
import Pare.Proofs.Patches
import Pare.Proofs.Paths
import Pare.Proofs.Planning
import Pare.Proofs.Positions
import Pare.Proofs.Preorder
import Pare.Proofs.Prologue
import Pare.Proofs.Readback
import Pare.Proofs.Redundancy
import Pare.Proofs.Regrouping
import Pare.Proofs.Relaid
import Pare.Proofs.Related
import Pare.Proofs.Repair
import Pare.Proofs.Reports
import Pare.Proofs.ReturnLine
import Pare.Proofs.ReturnedSequence
import Pare.Proofs.Rewording
import Pare.Proofs.Seams
import Pare.Proofs.Similarity
import Pare.Proofs.Splice
import Pare.Proofs.Steps
import Pare.Proofs.Targets
import Pare.Proofs.TokenStream
import Pare.Proofs.WellFormed
import Pare.Proofs.Words
import Pare.Report
import Pare.Report.Human
import Pare.Report.Machine
import Pare.Report.Share
import Pare.Report.Stats
import Pare.Report.Style
import Pare.Rule.ArrowBody
import Pare.Rule.Braces
import Pare.Rule.Grouping
import Pare.Rule.Indexing
import Pare.Rule.Walk
import Pare.Search.Glob
import Pare.Search.Ignore
import Pare.Search.Regular
import Pare.Search.Scene
import Pare.Search.Walk
import Pare.Source
import Pare.Span
import Pare.Text.Class
import Pare.Text.Offset
import Pare.Token
import Pare.Tree.Basic
import Pare.Tree.Kind
import Pare.Work
