import BackgroundTasks.Backoff
import BackgroundTasks.Clock
import BackgroundTasks.Config.Basic
import BackgroundTasks.Config.VariableFile
import BackgroundTasks.Config.VariableValue
import BackgroundTasks.Config.Variables
import BackgroundTasks.Context
import BackgroundTasks.Failure
import BackgroundTasks.Json.Fields
import BackgroundTasks.Json.Lexer
import BackgroundTasks.Json.Printer
import BackgroundTasks.Json.Reader
import BackgroundTasks.Json.Value
import BackgroundTasks.Number.Binary64
import BackgroundTasks.Number.Decimal
import BackgroundTasks.Number.Significand
import BackgroundTasks.Payload.Registry
import BackgroundTasks.Payload.Schema
import BackgroundTasks.Platform.Basic
import BackgroundTasks.Platform.Registrations
import BackgroundTasks.Platform.Timers
import BackgroundTasks.Program
import BackgroundTasks.Random.ChaCha
import BackgroundTasks.Random.Draws
import BackgroundTasks.Request.Basic
import BackgroundTasks.Request.Normalize
import BackgroundTasks.Request.Submission
import BackgroundTasks.Saturating
import BackgroundTasks.Scheduler.Basic
import BackgroundTasks.Scheduler.Decision
import BackgroundTasks.Scheduler.Execution
import BackgroundTasks.Scheduler.Operations
import BackgroundTasks.Scheduler.Responses
import BackgroundTasks.Scheduler.Watchdog
import BackgroundTasks.Setup
import BackgroundTasks.Span
import BackgroundTasks.StatusBoard
import BackgroundTasks.StatusBoard.Streams
import BackgroundTasks.Store.Call
import BackgroundTasks.Store.Files
import BackgroundTasks.Store.Messages
import BackgroundTasks.Store.Place
import BackgroundTasks.Store.Statements
import BackgroundTasks.Store.Table
import BackgroundTasks.System.Basic
import BackgroundTasks.System.Call
import BackgroundTasks.System.Faults
import BackgroundTasks.Task.Log
import BackgroundTasks.Task.Row
import BackgroundTasks.Task.Spec
import BackgroundTasks.Task.State
import BackgroundTasks.Task.Step
import BackgroundTasks.TaskId
import BackgroundTasks.TaskId.ShortNames
import BackgroundTasks.Telemetry
import BackgroundTasks.Text.Alphanumeric
import BackgroundTasks.Text.Base64
import BackgroundTasks.Text.Blank
import BackgroundTasks.Text.Hex
import BackgroundTasks.Text.Position
import BackgroundTasks.Text.Utf8
import BackgroundTasks.Timeline.Basic
import BackgroundTasks.Timeline.Restart
import BackgroundTasks.Timeline.Script
import BackgroundTasks.Timeline.World
import BackgroundTasks.Work.Error
import BackgroundTasks.Work.Result
import BackgroundTasks.Proofs.Interleaving.Basic
import BackgroundTasks.Proofs.Interleaving.Conduct
import BackgroundTasks.Proofs.Custody
import BackgroundTasks.Proofs.Interleaving.History
import BackgroundTasks.Proofs.Deeds
import BackgroundTasks.Proofs.Fencing
import BackgroundTasks.Proofs.Ownership
import BackgroundTasks.Proofs.RetryBudget
import BackgroundTasks.Proofs.WakeUps
import BackgroundTasks.Proofs.Files.Atomic
import BackgroundTasks.Proofs.RoundTrip.Json
import BackgroundTasks.Proofs.Alike
import BackgroundTasks.Proofs.RoundTrip.Text
import BackgroundTasks.Proofs.RoundTrip.Numeral
import BackgroundTasks.Proofs.RoundTrip.Records
import BackgroundTasks.Proofs.Files.Places
import BackgroundTasks.Proofs.Files.Faults
import BackgroundTasks.Proofs.Files.Contents
import BackgroundTasks.Proofs.Files.Refinement
import BackgroundTasks.Proofs.Files.Durability
import BackgroundTasks.Proofs.Files.Process
import BackgroundTasks.Proofs.Files.Recovery
import BackgroundTasks.Proofs.Timing
import BackgroundTasks.Proofs.Punctual
import BackgroundTasks.Proofs.RoundTrip.Torn
import BackgroundTasks.Proofs.Files.Deaths
import BackgroundTasks.Proofs.Files.TornLog
import BackgroundTasks.Proofs.Files.AfterTorn
import BackgroundTasks.Proofs.Audit.Course
import BackgroundTasks.Proofs.Audit.Trail
import BackgroundTasks.Proofs.RoundTrip.Envelope
import BackgroundTasks.Proofs.RoundTrip.Payloads
import BackgroundTasks.Proofs.Descriptions
import BackgroundTasks.Proofs.WellFormed
import BackgroundTasks.Proofs.Sequential
import BackgroundTasks.Proofs.Mirror
import BackgroundTasks.Proofs.Status.Reports
import BackgroundTasks.Proofs.Status.Boards
import BackgroundTasks.Proofs.Status.Backlog
import BackgroundTasks.Proofs.Status.Streams
import BackgroundTasks.Proofs.LifeCycle
import BackgroundTasks.Proofs.Audit.Failures
import BackgroundTasks.Proofs.Sealing
import BackgroundTasks.Proofs.Silence
import BackgroundTasks.Proofs.Periods
import BackgroundTasks.Proofs.Cycles
import BackgroundTasks.Proofs.Floats.Rounding
import BackgroundTasks.Proofs.Floats.Units
import BackgroundTasks.Proofs.Floats.Arithmetic
import BackgroundTasks.Proofs.RetryDelays
import BackgroundTasks.Proofs.Numbers
import BackgroundTasks.Proofs.Files.Numbers
import BackgroundTasks.Proofs.Ensures
import BackgroundTasks.Proofs.Alone
import BackgroundTasks.Proofs.Adverse
import BackgroundTasks.Proofs.Rejections
import BackgroundTasks.Proofs.Serving
import BackgroundTasks.Proofs.Watchdog
import BackgroundTasks.Proofs.Dispatch
import BackgroundTasks.Proofs.Orphans
import BackgroundTasks.Proofs.Listings
import BackgroundTasks.Proofs.Sleepers
