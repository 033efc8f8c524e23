import FixGate.Act.Basic
import FixGate.Act.Files
import FixGate.Act.Programs
import FixGate.Analysis.Analyzer
import FixGate.Analysis.Clippy
import FixGate.Analysis.Pattern
import FixGate.Analysis.Registry
import FixGate.Analysis.Semgrep
import FixGate.CommandLine
import FixGate.Compile.Cargo
import FixGate.Compile.Database
import FixGate.Compile.Diagnostics
import FixGate.Compile.Toolchain
import FixGate.Compile.Words
import FixGate.Decimal.Nearest
import FixGate.Decimal.Reading
import FixGate.Decimal.Shortest
import FixGate.Dialogue.Model
import FixGate.Dialogue.Reply
import FixGate.Dialogue.Roles
import FixGate.Diff.Blocks
import FixGate.Diff.Unified
import FixGate.Digest
import FixGate.Failure
import FixGate.Files.Disk
import FixGate.Files.Path
import FixGate.Files.Tree
import FixGate.Fix.Change
import FixGate.Fix.Plan
import FixGate.Fix.Verdict
import FixGate.Issue.Basic
import FixGate.Issue.Category
import FixGate.Issue.Language
import FixGate.Issue.Severity
import FixGate.Json.Reader
import FixGate.Json.Writer
import FixGate.Ledger
import FixGate.Main
import FixGate.Options
import FixGate.Process
import FixGate.Repair
import FixGate.Report.Markup
import FixGate.Report.Printing
import FixGate.Session
import FixGate.Settings
import FixGate.Source.Lines
import FixGate.Source.Signature
import FixGate.Source.Window
import FixGate.Text.Blank
import FixGate.Text.Case
import FixGate.Text.Cased
import FixGate.Text.Digit
import FixGate.Text.Integer
import FixGate.Text.Lines
import FixGate.Text.Point
import FixGate.Text.Printable
import FixGate.Text.Quoted
import FixGate.Text.Search
import FixGate.Text.Utf8
import FixGate.Text.Word
import FixGate.Toml.Document
import FixGate.Toml.Reader
import FixGate.Validation
import FixGate.Value
import FixGate.Value.Access
import FixGate.Proofs.Act.Failures
import FixGate.Proofs.Act.Files
import FixGate.Proofs.Act.Outcome
import FixGate.Proofs.Act.Programs
import FixGate.Proofs.Act.Replaceable
import FixGate.Proofs.Act.Ways
import FixGate.Proofs.Analysis.Analyzers
import FixGate.Proofs.Analysis.Clippy
import FixGate.Proofs.Analysis.Covered
import FixGate.Proofs.Analysis.LineNumbers
import FixGate.Proofs.Analysis.Ordered
import FixGate.Proofs.Analysis.Pattern
import FixGate.Proofs.Analysis.Scan
import FixGate.Proofs.Analysis.Selection
import FixGate.Proofs.Analysis.Semgrep
import FixGate.Proofs.Analysis.Survey
import FixGate.Proofs.CommandLine.Declined
import FixGate.Proofs.CommandLine.Gate
import FixGate.Proofs.CommandLine.Rounds
import FixGate.Proofs.CommandLine.Upward
import FixGate.Proofs.Compile.Cargo
import FixGate.Proofs.Compile.Complaints
import FixGate.Proofs.Compile.Entries
import FixGate.Proofs.Compile.Flags
import FixGate.Proofs.Compile.Kept
import FixGate.Proofs.Compile.Loading
import FixGate.Proofs.Compile.Nearest
import FixGate.Proofs.Compile.Reports
import FixGate.Proofs.Dialogue.Answers
import FixGate.Proofs.Dialogue.Blocks
import FixGate.Proofs.Dialogue.Code
import FixGate.Proofs.Dialogue.Earliest
import FixGate.Proofs.Dialogue.Embedded
import FixGate.Proofs.Files.Endings
import FixGate.Proofs.Files.Places
import FixGate.Proofs.Files.Resolved
import FixGate.Proofs.Files.Tree
import FixGate.Proofs.Issue.Fingerprint
import FixGate.Proofs.Json.Grammar
import FixGate.Proofs.Json.Numbers
import FixGate.Proofs.Json.Quotes
import FixGate.Proofs.Json.Reading
import FixGate.Proofs.Json.Rooms
import FixGate.Proofs.Json.Steps
import FixGate.Proofs.Json.Zones
import FixGate.Proofs.Ledger.Steps
import FixGate.Proofs.Ledger.Exact
import FixGate.Proofs.Ledger.Undo
import FixGate.Proofs.Repair.Applied
import FixGate.Proofs.Repair.Attempts
import FixGate.Proofs.Repair.Cleared
import FixGate.Proofs.Repair.Feedback
import FixGate.Proofs.Repair.Generation
import FixGate.Proofs.Repair.Repairable
import FixGate.Proofs.Repair.Restores
import FixGate.Proofs.Repair.Validated
import FixGate.Proofs.Repair.Windows
import FixGate.Proofs.Report.Difference
import FixGate.Proofs.Session.Accepted
import FixGate.Proofs.Session.Answers
import FixGate.Proofs.Session.Consent
import FixGate.Proofs.Session.Rows
import FixGate.Proofs.Session.Turns
import FixGate.Proofs.Session.Unwritten
import FixGate.Proofs.Source.Above
import FixGate.Proofs.Source.Ends
import FixGate.Proofs.Source.Heads
import FixGate.Proofs.Source.LineCount
import FixGate.Proofs.Source.Lines
import FixGate.Proofs.Source.Ranges
import FixGate.Proofs.Source.Returns
import FixGate.Proofs.Source.Splice
import FixGate.Proofs.Source.Starts
import FixGate.Proofs.Source.Unchanged
import FixGate.Proofs.Source.Window
import FixGate.Proofs.Text.Breaks
import FixGate.Proofs.Text.Encoding
import FixGate.Proofs.Text.Integer
import FixGate.Proofs.Text.Strip
import FixGate.Proofs.Text.Utf8
import FixGate.Proofs.Text.Within
import FixGate.Proofs.Validation
import FixGate.Proofs.Validation.Bystanders
import FixGate.Proofs.Validation.Matching
import FixGate.Proofs.Validation.Verdict
