import PipeLint.Check.Pipeline
import PipeLint.Check.Quoted
import PipeLint.Check.Stage
import PipeLint.Command.Fault
import PipeLint.Command.Options
import PipeLint.Command.Run
import PipeLint.Finding
import PipeLint.FlagSet
import PipeLint.Json.Basic
import PipeLint.Json.Number
import PipeLint.Json.Parser
import PipeLint.Json.Printer
import PipeLint.Json.Quoted
import PipeLint.Json.Token
import PipeLint.Main
import PipeLint.Pipeline.Basic
import PipeLint.Pipeline.Quoting
import PipeLint.Proofs.Bytes.Cursor
import PipeLint.Proofs.Bytes.Quoted
import PipeLint.Proofs.Bytes.Report
import PipeLint.Proofs.Bytes.Stages
import PipeLint.Proofs.Bytes.Tokens
import PipeLint.Proofs.Check.Alike
import PipeLint.Proofs.Check.Character
import PipeLint.Proofs.Check.Closed
import PipeLint.Proofs.Check.Cut
import PipeLint.Proofs.Check.Error
import PipeLint.Proofs.Check.Escape
import PipeLint.Proofs.Check.Finding
import PipeLint.Proofs.Check.Order
import PipeLint.Proofs.Check.Pipeline
import PipeLint.Proofs.Check.Repeated
import PipeLint.Proofs.Check.Supported
import PipeLint.Proofs.Command.Output
import PipeLint.Proofs.Command.Printing
import PipeLint.Proofs.Command.Sources
import PipeLint.Proofs.Finding.Place
import PipeLint.Proofs.Finding.Wording
import PipeLint.Proofs.Grammar.Alone
import PipeLint.Proofs.Grammar.Interior
import PipeLint.Proofs.Grammar.Item
import PipeLint.Proofs.Grammar.Reading
import PipeLint.Proofs.Grammar.Written
import PipeLint.Proofs.Json.Fields
import PipeLint.Proofs.Json.Number
import PipeLint.Proofs.Json.Parser
import PipeLint.Proofs.Json.Quoted
import PipeLint.Proofs.Json.Spelling
import PipeLint.Proofs.Json.Token
import PipeLint.Proofs.List.MapM
import PipeLint.Proofs.List.Twice
import PipeLint.Proofs.Pipeline.Around
import PipeLint.Proofs.Pipeline.Gaps
import PipeLint.Proofs.Pipeline.Join
import PipeLint.Proofs.Pipeline.Literal
import PipeLint.Proofs.Pipeline.Padded
import PipeLint.Proofs.Pipeline.Pieces
import PipeLint.Proofs.Pipeline.Stages
import PipeLint.Proofs.Quoting.Scan
import PipeLint.Proofs.Quoting.Tokens
import PipeLint.Proofs.Report.Around
import PipeLint.Proofs.Report.Grammar
import PipeLint.Proofs.Report.Json
import PipeLint.Proofs.Report.Literal
import PipeLint.Proofs.Report.Observable
import PipeLint.Proofs.Report.Order
import PipeLint.Proofs.Report.Quotes
import PipeLint.Proofs.Report.Repeated
import PipeLint.Proofs.Report.Spelling
import PipeLint.Proofs.Report.Supported
import PipeLint.Proofs.Report.Underline
import PipeLint.Proofs.Report.Valid
import PipeLint.Proofs.Report.Warning
import PipeLint.Proofs.Report.Written
import PipeLint.Proofs.Text.Gaps
import PipeLint.Proofs.Text.Lines
import PipeLint.Proofs.Text.Occurrence
import PipeLint.Proofs.Text.Place
import PipeLint.Proofs.Text.Trim
import PipeLint.Proofs.Token.Append
import PipeLint.Proofs.Token.Gaps
import PipeLint.Proofs.Token.Quoted
import PipeLint.Proofs.Token.Shape
import PipeLint.Report.Basic
import PipeLint.Report.Json
import PipeLint.Report.Render
import PipeLint.Rules
import PipeLint.Span
import PipeLint.Text.Basic
import PipeLint.Text.Blank
import PipeLint.Text.CharLiteral
import PipeLint.Text.Lines
import PipeLint.Token.Basic
import PipeLint.Token.Lexeme
import PipeLint.Unicode.Combining
import PipeLint.Unicode.Printable
