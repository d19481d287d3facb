import RowContract.Batch
import RowContract.Binary64.Basic
import RowContract.Binary64.Layout
import RowContract.Binary64.Reading
import RowContract.Binary64.Shortest
import RowContract.Calendar.Basic
import RowContract.Calendar.Instant
import RowContract.Calendar.Layout
import RowContract.Command.Arguments
import RowContract.Command.Console
import RowContract.Command.Explanation
import RowContract.Command.Run
import RowContract.Contract.Basic
import RowContract.Contract.DataType
import RowContract.Contract.Loading
import RowContract.Contract.Mapping
import RowContract.Contract.Operation
import RowContract.Contract.Reading
import RowContract.Contract.Schema
import RowContract.Contract.Writing
import RowContract.Decimal.Basic
import RowContract.Decimal.Binary
import RowContract.Decimal.Reading
import RowContract.Document.Basic
import RowContract.Document.Reading
import RowContract.Document.Selection
import RowContract.Entity.Basic
import RowContract.Entity.Keys
import RowContract.EnvironmentFile
import RowContract.Expr.Expression
import RowContract.Expr.Fault
import RowContract.Expr.Outcome
import RowContract.Expr.Token
import RowContract.Expr.Token.Lexer
import RowContract.Expr.Tree
import RowContract.Expr.Tree.Parser
import RowContract.Fields
import RowContract.FileFault
import RowContract.Json.Basic
import RowContract.Json.Equality
import RowContract.Json.Number
import RowContract.Json.Parser
import RowContract.Json.Shape
import RowContract.Json.Source
import RowContract.Json.Text
import RowContract.Json.Typed
import RowContract.Load.Diagnostic
import RowContract.Load.Fault
import RowContract.Load.Loader
import RowContract.Load.Memory
import RowContract.Load.Rehearsal
import RowContract.Load.Script
import RowContract.Load.Session
import RowContract.Load.Settings
import RowContract.Load.Store
import RowContract.Log
import RowContract.Main
import RowContract.Migration
import RowContract.Proofs.Batch
import RowContract.Proofs.Calendar.Order
import RowContract.Proofs.Calendar.Reading
import RowContract.Proofs.Contract.Acceptance
import RowContract.Proofs.Contract.ChainText
import RowContract.Proofs.Contract.DataType
import RowContract.Proofs.Contract.Expressions
import RowContract.Proofs.Contract.Operation
import RowContract.Proofs.Contract.Order
import RowContract.Proofs.Contract.RoundTrip
import RowContract.Proofs.Contract.Schema
import RowContract.Proofs.Contract.TypeText
import RowContract.Proofs.Contract.WellFormed
import RowContract.Proofs.Document.Construction
import RowContract.Proofs.Document.Insertion
import RowContract.Proofs.Document.Nesting
import RowContract.Proofs.Document.Outline
import RowContract.Proofs.Document.Selection
import RowContract.Proofs.Entity.Build
import RowContract.Proofs.Entity.Columns
import RowContract.Proofs.Entity.Correspondence
import RowContract.Proofs.Entity.Identity
import RowContract.Proofs.Entity.Insertion
import RowContract.Proofs.Entity.Isolation
import RowContract.Proofs.Entity.Names
import RowContract.Proofs.Entity.Parents
import RowContract.Proofs.Entity.WellFormed
import RowContract.Proofs.Expr.Bare
import RowContract.Proofs.Expr.Contents
import RowContract.Proofs.Expr.Division
import RowContract.Proofs.Expr.Grammar
import RowContract.Proofs.Expr.Lexer
import RowContract.Proofs.Expr.Lookahead
import RowContract.Proofs.Expr.Names
import RowContract.Proofs.Expr.Parser
import RowContract.Proofs.Expr.Parser.Completeness
import RowContract.Proofs.Expr.Parser.Depth
import RowContract.Proofs.Expr.Parser.Soundness
import RowContract.Proofs.Expr.Positions.Compile
import RowContract.Proofs.Expr.Positions.Group
import RowContract.Proofs.Expr.Positions.Lexer
import RowContract.Proofs.Expr.Positions.Parser
import RowContract.Proofs.Expr.Positions.Step
import RowContract.Proofs.Expr.Sandbox
import RowContract.Proofs.Expr.Spelling
import RowContract.Proofs.Expr.Unambiguity
import RowContract.Proofs.Fields
import RowContract.Proofs.Grouping
import RowContract.Proofs.Json.Equality
import RowContract.Proofs.Json.Shape
import RowContract.Proofs.Load.Accounting
import RowContract.Proofs.Load.Agreement
import RowContract.Proofs.Load.Alignment
import RowContract.Proofs.Load.FirstWrite
import RowContract.Proofs.Load.KeyValue
import RowContract.Proofs.Load.Keys
import RowContract.Proofs.Load.Memory
import RowContract.Proofs.Load.Progress
import RowContract.Proofs.Load.Reading
import RowContract.Proofs.Load.Replay
import RowContract.Proofs.Load.Reporting
import RowContract.Proofs.Load.RowByRow
import RowContract.Proofs.Load.Script
import RowContract.Proofs.Load.Statements
import RowContract.Proofs.Load.Steps
import RowContract.Proofs.Load.Store
import RowContract.Proofs.Load.Submission
import RowContract.Proofs.Load.Switches
import RowContract.Proofs.Migration
import RowContract.Proofs.Outcome
import RowContract.Proofs.Plan
import RowContract.Proofs.Resolution.Chain
import RowContract.Proofs.Resolution.Compiled
import RowContract.Proofs.Resolution.Enumeration
import RowContract.Proofs.Resolution.Failure
import RowContract.Proofs.Resolution.Fit
import RowContract.Proofs.Resolution.Links
import RowContract.Proofs.Resolution.Texts
import RowContract.Proofs.Sql.Brackets
import RowContract.Proofs.Sql.Cache
import RowContract.Proofs.Sql.Parts
import RowContract.Proofs.Sql.Placeholders
import RowContract.Proofs.Sql.Rendering
import RowContract.Proofs.Sql.Statement
import RowContract.Proofs.Text.Digits
import RowContract.Proofs.Text.Search
import RowContract.Proofs.Text.Trim
import RowContract.Record
import RowContract.Resolution
import RowContract.Sql.Cache
import RowContract.Sql.Rendering
import RowContract.Sql.Statement
import RowContract.Text.Blank
import RowContract.Text.Digits
import RowContract.Text.Invisible
import RowContract.Text.Mark
import RowContract.Text.Quoted
import RowContract.Text.Range
import RowContract.Text.Search
import RowContract.Text.Word
import RowContract.Value
