import JavadocCoverage.Command.Help
import JavadocCoverage.Command.Implicit
import JavadocCoverage.Command.Parameter
import JavadocCoverage.Command.Reader
import JavadocCoverage.Command.Root
import JavadocCoverage.Files.Cause
import JavadocCoverage.Files.Change
import JavadocCoverage.Files.Path
import JavadocCoverage.Files.Resolve
import JavadocCoverage.Files.Tree
import JavadocCoverage.Files.Walk
import JavadocCoverage.Files.Write
import JavadocCoverage.Json.Double
import JavadocCoverage.Json.Finding
import JavadocCoverage.Json.Lexeme
import JavadocCoverage.Json.Skip
import JavadocCoverage.Json.Value
import JavadocCoverage.Log.Directive
import JavadocCoverage.Log.Event
import JavadocCoverage.Log.Filter
import JavadocCoverage.Main
import JavadocCoverage.Pattern.Atom
import JavadocCoverage.Pattern.Class
import JavadocCoverage.Pattern.Flags
import JavadocCoverage.Pattern.WellFormed
import JavadocCoverage.Program
import JavadocCoverage.Proofs.Command.Argument
import JavadocCoverage.Proofs.Command.Completion
import JavadocCoverage.Proofs.Command.Implicit
import JavadocCoverage.Proofs.Command.Reading
import JavadocCoverage.Proofs.Files.Discovery
import JavadocCoverage.Proofs.Files.Frame
import JavadocCoverage.Proofs.Files.LastName
import JavadocCoverage.Proofs.Files.Listing
import JavadocCoverage.Proofs.Files.Obstruction
import JavadocCoverage.Proofs.Files.Place
import JavadocCoverage.Proofs.Files.Writing
import JavadocCoverage.Proofs.Json.Finding
import JavadocCoverage.Proofs.Json.Grammar
import JavadocCoverage.Proofs.Json.Lexeme
import JavadocCoverage.Proofs.Json.Printing
import JavadocCoverage.Proofs.Json.Reading
import JavadocCoverage.Proofs.Report.Accounting
import JavadocCoverage.Proofs.Report.Delivery
import JavadocCoverage.Proofs.Report.JsonForm
import JavadocCoverage.Proofs.Report.TextForm
import JavadocCoverage.Proofs.Report.Unreadable
import JavadocCoverage.Proofs.Source.CommentSpans
import JavadocCoverage.Proofs.Source.Findings
import JavadocCoverage.Proofs.Source.Insertion
import JavadocCoverage.Proofs.Source.Layout
import JavadocCoverage.Proofs.Source.Likeness
import JavadocCoverage.Proofs.Source.LookBack
import JavadocCoverage.Proofs.Source.Repair
import JavadocCoverage.Proofs.Source.SharedComment
import JavadocCoverage.Proofs.Source.SinglePass
import JavadocCoverage.Proofs.Text.Decimal
import JavadocCoverage.Proofs.Text.DecodedLines
import JavadocCoverage.Proofs.Text.Decoding
import JavadocCoverage.Proofs.Text.Encoding
import JavadocCoverage.Proofs.Text.Likeness
import JavadocCoverage.Proofs.Text.LineCursor
import JavadocCoverage.Proofs.Text.Lines
import JavadocCoverage.Proofs.Text.Terminators
import JavadocCoverage.Report.Audit
import JavadocCoverage.Report.Basic
import JavadocCoverage.Report.Rendering
import JavadocCoverage.Source.Comment
import JavadocCoverage.Source.Declaration
import JavadocCoverage.Source.Finding
import JavadocCoverage.Source.Scan
import JavadocCoverage.Text.Alphanumeric
import JavadocCoverage.Text.Basic
import JavadocCoverage.Text.Control
import JavadocCoverage.Text.Decimal
import JavadocCoverage.Text.Hexadecimal
import JavadocCoverage.Text.Line
import JavadocCoverage.Text.LineCursor
import JavadocCoverage.Text.Utf8
import JavadocCoverage.Text.WhiteSpace
