import DurableQueue.Background
import DurableQueue.Calendar
import DurableQueue.Decimal.Binary64
import DurableQueue.Decimal.Shortest
import DurableQueue.Delay
import DurableQueue.Handling
import DurableQueue.Identifier
import DurableQueue.Instant
import DurableQueue.Instant.Printer
import DurableQueue.Instant.Reader
import DurableQueue.Job
import DurableQueue.Job.Encoding
import DurableQueue.Json.Decode
import DurableQueue.Json.Printer
import DurableQueue.Json.Reader
import DurableQueue.Json.Value
import DurableQueue.Json.Walk
import DurableQueue.Json.Walk.Parts
import DurableQueue.Limits
import DurableQueue.Main
import DurableQueue.Outcome
import DurableQueue.Pool
import DurableQueue.Proofs.Instant.Order
import DurableQueue.Proofs.Job.Transition
import DurableQueue.Proofs.Pool.Dispatches
import DurableQueue.Proofs.Pool.Handled
import DurableQueue.Proofs.Pool.Permits
import DurableQueue.Proofs.Pool.Run
import DurableQueue.Proofs.Pool.Stop
import DurableQueue.Proofs.Regex
import DurableQueue.Proofs.Relational.Agreement
import DurableQueue.Proofs.Relational.Atomicity
import DurableQueue.Proofs.Relational.Course
import DurableQueue.Proofs.Relational.Database
import DurableQueue.Proofs.Relational.Lossless
import DurableQueue.Proofs.Relational.WriteBack
import DurableQueue.Proofs.Relational.Writing
import DurableQueue.Proofs.Schedule.Next
import DurableQueue.Proofs.Store.Conservation
import DurableQueue.Proofs.Store.Delay
import DurableQueue.Proofs.Store.Event
import DurableQueue.Proofs.Store.Exclusion
import DurableQueue.Proofs.Store.Jobs
import DurableQueue.Proofs.Store.Lock
import DurableQueue.Proofs.Store.Planned
import DurableQueue.Proofs.Store.Refused
import DurableQueue.Proofs.Store.Run
import DurableQueue.Proofs.Store.Separation
import DurableQueue.Proofs.Store.Sound
import DurableQueue.Proofs.Store.Tasks
import DurableQueue.Proofs.Store.Tick
import DurableQueue.Proofs.Store.Turn
import DurableQueue.Proofs.Store.Unfailing
import DurableQueue.Proofs.Subject.Filter
import DurableQueue.Proofs.Table
import DurableQueue.Proofs.Task.Transition
import DurableQueue.Queue
import DurableQueue.Refusal
import DurableQueue.Relational.Calls
import DurableQueue.Relational.Rows
import DurableQueue.Relational.Script
import DurableQueue.Relational.Statement
import DurableQueue.Relational.Value
import DurableQueue.Schedule.Expression
import DurableQueue.Schedule.Field
import DurableQueue.Schedule.Next
import DurableQueue.Schedule.Reader
import DurableQueue.Scheduler
import DurableQueue.Settings
import DurableQueue.Simulation
import DurableQueue.Simulation.Caller
import DurableQueue.Simulation.Work
import DurableQueue.Span
import DurableQueue.Store
import DurableQueue.Store.Jobs
import DurableQueue.Store.Tasks
import DurableQueue.Subject
import DurableQueue.Subject.Pattern
import DurableQueue.Table
import DurableQueue.Task
import DurableQueue.Task.Encoding
import DurableQueue.Task.Status
import DurableQueue.Text.Blank
import DurableQueue.Text.Escaped
import DurableQueue.Text.Hidden
import DurableQueue.Text.Number
import DurableQueue.Uuid
import DurableQueue.Worker
import DurableQueue.Worker.Arguments
import DurableQueue.Worker.Help
import DurableQueue.Worker.Report
import DurableQueue.Proofs.Store.Attempts
import DurableQueue.Proofs.Store.Commutation
import DurableQueue.Proofs.Background.Steps
import DurableQueue.Proofs.Background.Lifecycle
import DurableQueue.Proofs.Background.Signal
import DurableQueue.Proofs.Store.Repetition
import DurableQueue.Proofs.Store.Draining
import DurableQueue.Proofs.Store.Coverage
import DurableQueue.Proofs.Store.Registration
import DurableQueue.Proofs.Relational.Schema
import DurableQueue.Proofs.Relational.Constraints
import DurableQueue.Proofs.Subject.Matching
import DurableQueue.Proofs.Instant.Nanos
import DurableQueue.Proofs.Job.Firing
import DurableQueue.Proofs.Store.Cleanup
import DurableQueue.Proofs.Store.Publishing
import DurableQueue.Proofs.Relational.Codec
import DurableQueue.Proofs.Calendar
import DurableQueue.Proofs.Schedule.Fields
import DurableQueue.Proofs.Schedule.Earliest
import DurableQueue.Proofs.Text.Number
import DurableQueue.Proofs.Settings
import DurableQueue.Proofs.Pool.Limit
import DurableQueue.Proofs.Json.RoundTrip
import DurableQueue.Proofs.Json.Decode
import DurableQueue.Proofs.Job.Definitions
