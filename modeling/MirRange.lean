import MirRange.Analysis
import MirRange.Body
import MirRange.CommandLine.Command
import MirRange.CommandLine.Grammar
import MirRange.Crate
import MirRange.Document
import MirRange.Document.Literal
import MirRange.Document.Reader
import MirRange.Document.Writer
import MirRange.Fault
import MirRange.Files
import MirRange.Glob
import MirRange.Interpretation
import MirRange.Interval
import MirRange.Log
import MirRange.Main
import MirRange.Malformed
import MirRange.Numeral.Binary64
import MirRange.Numeral.Decimal
import MirRange.Numeral.Shortest
import MirRange.Operand
import MirRange.Overflow
import MirRange.Place
import MirRange.Presentation
import MirRange.Problem
import MirRange.Program
import MirRange.Proofs.Access
import MirRange.Proofs.Agreement
import MirRange.Proofs.Arguments
import MirRange.Proofs.Bounds
import MirRange.Proofs.Description
import MirRange.Proofs.Dispatch
import MirRange.Proofs.Exactness
import MirRange.Proofs.Execution
import MirRange.Proofs.Fitting
import MirRange.Proofs.FoundedAlarm
import MirRange.Proofs.Isolation
import MirRange.Proofs.JsonGrammar
import MirRange.Proofs.JsonText
import MirRange.Proofs.Lattice
import MirRange.Proofs.Lens
import MirRange.Proofs.Meaning
import MirRange.Proofs.Monotonicity
import MirRange.Proofs.NoMissedOverflow
import MirRange.Proofs.Observation
import MirRange.Proofs.Outcome
import MirRange.Proofs.OverflowQuery
import MirRange.Proofs.Path
import MirRange.Proofs.Readback
import MirRange.Proofs.Rearrangement
import MirRange.Proofs.Refill
import MirRange.Proofs.Refusal
import MirRange.Proofs.Relations
import MirRange.Proofs.RoundTrip
import MirRange.Proofs.Run
import MirRange.Proofs.Seed
import MirRange.Proofs.Shape
import MirRange.Proofs.Soundness
import MirRange.Proofs.SummaryLookup
import MirRange.Proofs.Truncation
import MirRange.Proofs.TypePreservation
import MirRange.Proofs.Typing
import MirRange.Proofs.Widening
import MirRange.Report
import MirRange.Rvalue
import MirRange.Settings
import MirRange.Settings.Document
import MirRange.Settings.Entry
import MirRange.Settings.File
import MirRange.Settings.Yaml
import MirRange.State
import MirRange.Statement
import MirRange.Summary
import MirRange.Text.Blank
import MirRange.Text.Digit
import MirRange.Text.Printable
import MirRange.Text.Quoted
import MirRange.Truth
import MirRange.Ty
import MirRange.Value
import MirRange.Value.Access
import MirRange.Value.Lattice
import MirRange.Value.Typed
import MirRange.Violation
import MirRange.Yaml
import MirRange.Yaml.Cursor
import MirRange.Yaml.Node
import MirRange.Yaml.Plain
import MirRange.Yaml.Scalar
import MirRange.Yaml.Timestamp
import MirRange.Yaml.Token
import MirRange.Yaml.Value
