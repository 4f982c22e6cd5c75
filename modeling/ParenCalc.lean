import ParenCalc.Command.Arguments
import ParenCalc.Command.Launch
import ParenCalc.Command.Prompt
import ParenCalc.Command.Script
import ParenCalc.Command.Settings
import ParenCalc.Datum
import ParenCalc.Datum.Atom
import ParenCalc.Datum.Reader
import ParenCalc.Eval
import ParenCalc.Expr
import ParenCalc.Expr.Build
import ParenCalc.Expr.Print
import ParenCalc.Fault
import ParenCalc.Interpreter
import ParenCalc.Json
import ParenCalc.Json.Parse
import ParenCalc.Json.Render
import ParenCalc.Main
import ParenCalc.Number.Basic
import ParenCalc.Number.Binary64
import ParenCalc.Number.Decimal
import ParenCalc.Number.Digits
import ParenCalc.Number.Numeral
import ParenCalc.Number.Shortest
import ParenCalc.Operator
import ParenCalc.Operator.Apply
import ParenCalc.OrderedMap
import ParenCalc.Report
import ParenCalc.Scope
import ParenCalc.Scope.Forest
import ParenCalc.Server.Connection
import ParenCalc.Server.Reply
import ParenCalc.Server.Request
import ParenCalc.Session.Action
import ParenCalc.Session.Ids
import ParenCalc.Session.Reaper
import ParenCalc.Session.Registry
import ParenCalc.Symbol
import ParenCalc.Text.Blank
import ParenCalc.Text.CodePoint
import ParenCalc.Text.DecimalDigit
import ParenCalc.Text.Hex
import ParenCalc.Text.Lines
import ParenCalc.Text.Printable
import ParenCalc.Text.Quoted
import ParenCalc.Text.Uppercase
import ParenCalc.Text.Utf8
import ParenCalc.Token
import ParenCalc.Proofs.Command.Dialogue
import ParenCalc.Proofs.Command.Settings
import ParenCalc.Proofs.Datum.Cursor
import ParenCalc.Proofs.Datum.Grammar
import ParenCalc.Proofs.Datum.Joining
import ParenCalc.Proofs.Datum.Names
import ParenCalc.Proofs.Datum.Stream
import ParenCalc.Proofs.Datum.Writing
import ParenCalc.Proofs.Eval.Agreement
import ParenCalc.Proofs.Eval.Alike
import ParenCalc.Proofs.Eval.Batches
import ParenCalc.Proofs.Eval.Completions
import ParenCalc.Proofs.Eval.Definitions
import ParenCalc.Proofs.Eval.Failures
import ParenCalc.Proofs.Eval.Locality
import ParenCalc.Proofs.Eval.Messages
import ParenCalc.Proofs.Eval.Nesting
import ParenCalc.Proofs.Eval.Outcomes
import ParenCalc.Proofs.Eval.Provenance
import ParenCalc.Proofs.Eval.Safety
import ParenCalc.Proofs.Eval.Sequences
import ParenCalc.Proofs.Expr.Building
import ParenCalc.Proofs.Expr.Grammar
import ParenCalc.Proofs.Expr.Printing
import ParenCalc.Proofs.Expr.Room
import ParenCalc.Proofs.Expr.WellFormed
import ParenCalc.Proofs.Expr.Width
import ParenCalc.Proofs.Json.Grammar
import ParenCalc.Proofs.Json.Limits
import ParenCalc.Proofs.Json.Reading
import ParenCalc.Proofs.Json.Scalars
import ParenCalc.Proofs.Json.Sending
import ParenCalc.Proofs.Json.Strings
import ParenCalc.Proofs.Number.Digits
import ParenCalc.Proofs.Number.Layout
import ParenCalc.Proofs.Number.Literal
import ParenCalc.Proofs.Number.Order
import ParenCalc.Proofs.Number.Rounding
import ParenCalc.Proofs.Operator.Exactness
import ParenCalc.Proofs.Scope.Shadowing
import ParenCalc.Proofs.Server.FailedRequests
import ParenCalc.Proofs.Server.Framing
import ParenCalc.Proofs.Server.LineReplies
import ParenCalc.Proofs.Server.Requests
import ParenCalc.Proofs.Server.SendableReplies
import ParenCalc.Proofs.Server.TextReplies
import ParenCalc.Proofs.Server.Wire
import ParenCalc.Proofs.Server.Wording
import ParenCalc.Proofs.Session.Eviction
import ParenCalc.Proofs.Session.Isolation
import ParenCalc.Proofs.Session.Reaping
import ParenCalc.Proofs.Session.Replay
import ParenCalc.Proofs.Session.Roster
import ParenCalc.Proofs.Session.Safety
import ParenCalc.Proofs.Session.Steps
import ParenCalc.Proofs.Session.Variables
import ParenCalc.Proofs.Text.LineEnds
import ParenCalc.Proofs.Text.Runs
import ParenCalc.Proofs.Text.Surrogates
import ParenCalc.Proofs.Text.Utf8
import ParenCalc.Proofs.Token.Gaps
import ParenCalc.Proofs.Token.Marks
