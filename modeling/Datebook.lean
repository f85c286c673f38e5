import Datebook.Calendar.Event
import Datebook.Calendar.Graph
import Datebook.Calendar.Memory
import Datebook.Calendar.Service
import Datebook.Calendar.Store
import Datebook.Command.Basic
import Datebook.Command.Fault
import Datebook.Command.Markup
import Datebook.Command.Pieces
import Datebook.Command.Reader
import Datebook.Command.Verb
import Datebook.Completion
import Datebook.Console.Arguments
import Datebook.Console.Basic
import Datebook.Console.Disk
import Datebook.Console.Line
import Datebook.Console.Rehearsal
import Datebook.Console.Screen
import Datebook.Console.Startup
import Datebook.Decimal.Binary
import Datebook.Decimal.Shortest
import Datebook.Dialogue
import Datebook.Execution
import Datebook.Failure
import Datebook.Http.Exchange
import Datebook.Http.Message
import Datebook.Http.Status
import Datebook.Http.Wire
import Datebook.Intent
import Datebook.Json.Basic
import Datebook.Json.Reader
import Datebook.Json.Record
import Datebook.Main
import Datebook.Proofs.Calendar.AllOrNothing
import Datebook.Proofs.Calendar.Change
import Datebook.Proofs.Calendar.Effect
import Datebook.Proofs.Calendar.EventAddress
import Datebook.Proofs.Calendar.Exchange
import Datebook.Proofs.Calendar.Lines
import Datebook.Proofs.Calendar.Listing
import Datebook.Proofs.Calendar.Operation
import Datebook.Proofs.Calendar.Order
import Datebook.Proofs.Calendar.Paging
import Datebook.Proofs.Calendar.Pinning
import Datebook.Proofs.Calendar.Redirection
import Datebook.Proofs.Calendar.Renaming
import Datebook.Proofs.Calendar.Store
import Datebook.Proofs.Calendar.Timing
import Datebook.Proofs.Command.Acceptance
import Datebook.Proofs.Command.Grammar
import Datebook.Proofs.Command.Reading
import Datebook.Proofs.Command.Recognition
import Datebook.Proofs.Command.RoundTrip
import Datebook.Proofs.Command.Sources
import Datebook.Proofs.Command.Splitting
import Datebook.Proofs.Command.Stopping
import Datebook.Proofs.Command.Unwrapping
import Datebook.Proofs.Command.Wrapping
import Datebook.Proofs.Console.Routing
import Datebook.Proofs.Decimal.Layout
import Datebook.Proofs.Decimal.Rounding
import Datebook.Proofs.Decimal.Shortest
import Datebook.Proofs.Decimal.Value
import Datebook.Proofs.Execution
import Datebook.Proofs.Intent
import Datebook.Proofs.Json.Layout
import Datebook.Proofs.Json.Leaves
import Datebook.Proofs.Json.Number
import Datebook.Proofs.Json.Pretty
import Datebook.Proofs.Json.Record
import Datebook.Proofs.Resolution
import Datebook.Proofs.Resolution.Direct
import Datebook.Proofs.Session.Asking
import Datebook.Proofs.Session.Conversation
import Datebook.Proofs.Session.Correctable
import Datebook.Proofs.Session.Course
import Datebook.Proofs.Session.FailedTurn
import Datebook.Proofs.Session.Invariant
import Datebook.Proofs.Session.Journal
import Datebook.Proofs.Session.Lifting
import Datebook.Proofs.Session.Likeness
import Datebook.Proofs.Session.Renaming
import Datebook.Proofs.Session.Reply
import Datebook.Proofs.Session.Run
import Datebook.Proofs.Session.Shown
import Datebook.Proofs.Session.Stage
import Datebook.Proofs.Settings.Building
import Datebook.Proofs.Settings.Sampling
import Datebook.Proofs.Settings.Validation
import Datebook.Proofs.Text.Cutting
import Datebook.Proofs.Text.Numeral
import Datebook.Proofs.Text.Padded
import Datebook.Proofs.Text.Replacement
import Datebook.Proofs.Time.Forms
import Datebook.Proofs.Time.Instant
import Datebook.Proofs.Time.Leap
import Datebook.Proofs.Time.Order
import Datebook.Proofs.Time.Placeholder
import Datebook.Proofs.Time.Scan
import Datebook.Proofs.Time.Written
import Datebook.Proofs.Transcript
import Datebook.Proofs.Transcript.Growth
import Datebook.Proofs.Transcript.Json
import Datebook.Proofs.Url.Escape
import Datebook.Proofs.Url.Extension
import Datebook.Proofs.Url.Segment
import Datebook.Proofs.Uuid
import Datebook.Resolution
import Datebook.Session.Basic
import Datebook.Session.Rehearsal
import Datebook.Settings.Basic
import Datebook.Settings.Reader
import Datebook.Settings.Validation
import Datebook.Setup
import Datebook.Supply
import Datebook.Text.Blank
import Datebook.Text.Digits
import Datebook.Text.Search
import Datebook.Time.Date
import Datebook.Time.DateTime
import Datebook.Time.Instant
import Datebook.Time.Scan
import Datebook.Time.Written
import Datebook.Toml.Lexical
import Datebook.Toml.Reader
import Datebook.Toml.Value
import Datebook.Transcript.Basic
import Datebook.Transcript.Json
import Datebook.Url.Basic
import Datebook.Url.Escape
import Datebook.Url.Host
import Datebook.Uuid
