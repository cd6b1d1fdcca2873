import Casebook.Calendar
import Casebook.Decimal.Binary64
import Casebook.Decimal.Shortest
import Casebook.Failure
import Casebook.FailureMap
import Casebook.Interval
import Casebook.Json.Basic
import Casebook.Json.Decoder
import Casebook.Json.Number
import Casebook.Json.Printer
import Casebook.Json.Reader
import Casebook.Junit.Case
import Casebook.Junit.Suite
import Casebook.Lifecycle
import Casebook.Log
import Casebook.Mismatch
import Casebook.Proofs.Calendar.Days
import Casebook.Proofs.Calendar.Moments
import Casebook.Proofs.Calendar.Rendering
import Casebook.Proofs.Failure.Causes
import Casebook.Proofs.Interval.Order
import Casebook.Proofs.Interval.StartTime
import Casebook.Proofs.Json.Decoding
import Casebook.Proofs.Json.Faults
import Casebook.Proofs.Json.Forms
import Casebook.Proofs.Json.Grammar
import Casebook.Proofs.Json.Printing
import Casebook.Proofs.Json.Reading
import Casebook.Proofs.Json.Records
import Casebook.Proofs.Json.Spelling
import Casebook.Proofs.Junit.Contents
import Casebook.Proofs.Junit.Details
import Casebook.Proofs.Junit.Tally
import Casebook.Proofs.Lifecycle.Attempts
import Casebook.Proofs.Log.Accounts
import Casebook.Proofs.Log.Moves
import Casebook.Proofs.Log.Warnings
import Casebook.Proofs.Result.Faults
import Casebook.Proofs.Result.Forms
import Casebook.Proofs.Result.Intervals
import Casebook.Proofs.Result.Parts
import Casebook.Proofs.Result.RoundTrip
import Casebook.Proofs.Session.Isolation
import Casebook.Proofs.Settings.Files
import Casebook.Proofs.Settings.Texts
import Casebook.Proofs.Status.Names
import Casebook.Proofs.Text.ByteOrder
import Casebook.Proofs.Toml.Inside
import Casebook.Proofs.Tracker.AuditTrail
import Casebook.Proofs.Tracker.Collisions
import Casebook.Proofs.Tracker.Counts
import Casebook.Proofs.Tracker.Course
import Casebook.Proofs.Tracker.Exports
import Casebook.Proofs.Tracker.Failures
import Casebook.Proofs.Tracker.Growth
import Casebook.Proofs.Tracker.Independence
import Casebook.Proofs.Tracker.Run
import Casebook.Proofs.Tracker.Snapshots
import Casebook.Proofs.Tracker.Verdicts
import Casebook.Properties
import Casebook.Result
import Casebook.Result.Json
import Casebook.Session
import Casebook.Session.Log
import Casebook.Settings.Basic
import Casebook.Settings.Document
import Casebook.Settings.Loading
import Casebook.Status
import Casebook.Storage
import Casebook.Subject
import Casebook.Text.Digit
import Casebook.Text.Plain
import Casebook.Text.Quoted
import Casebook.Text.Shown
import Casebook.Toml.Date
import Casebook.Toml.Document
import Casebook.Toml.Number
import Casebook.Toml.Quote
import Casebook.Toml.Reader
import Casebook.Toml.Statement
import Casebook.Toml.Table
import Casebook.Toml.Value
import Casebook.Tracker.Basic
import Casebook.Tracker.Step
import Casebook.Word

/-!
# Casebook

A casebook keeps the history of tests and makes results of it. The program comes in layers:

* what is told of a test: `Status`, `Interval` and `Calendar`, `Failure` and `FailureMap`, `Properties`,
  `Subject` and `Result`;
* the tracker of one test: its `Lifecycle`, the `Tracker` with its steps and runs, a `Session` of several
  trackers, and the `Log` of what they note;
* what results and settings are written as and read from: JSON (`Json`, `Result.Json`, `Mismatch`), the
  cases and suites of JUnit (`Junit`), and the files with `Settings` (`Storage`, `Toml`), all of them made
  of `Text`, `Decimal` numbers and `Word`s.

The modules under `Casebook.Proofs` follow the same layers. Those on trackers say what a run of any steps
leads to: its lifecycle and its answers (`Tracker.Course`), the failures, counts and verdicts of its result
(`Tracker.Failures`, `Tracker.Counts`, `Tracker.Verdicts`), the properties that are exported
(`Tracker.Exports`, `Tracker.Collisions`), how results follow each other (`Tracker.Growth`,
`Tracker.Snapshots`), what the order of steps does not matter for (`Tracker.Independence`,
`Session.Isolation`), and what the log tells of all this (`Tracker.AuditTrail`). Those on texts say which
texts are read as what, and in which words the others are refused: results and their parts
(`Result.RoundTrip`, `Result.Forms`, `Result.Faults`), statuses, times and causes (`Status.Names`,
`Interval.StartTime`, `Failure.Causes`), and settings (`Settings.Texts`, `Settings.Files`).
-/
