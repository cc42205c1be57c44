import DurableQueue.Json.Decode
import DurableQueue.Relational.Value

/-! Tasks and cron jobs as rows. A row is read in two steps: first all its columns, and then what they stand for. Counters
    have 32 bits with a sign in a row and lengths of time are whole seconds, so that writing cuts down what is larger. -/

namespace DurableQueue
namespace Relational

/-- Why a row is not a task or not a cron job. -/
inductive RowFault where
  | column (fault : SqlFault)
  | refused (cause : Refusal)
  /-- A counter is below zero. -/
  | negative
  deriving DecidableEq, Repr

/-- What a reader of the message is told. -/
def RowFault.message : RowFault → String
  | column fault => fault.message
  | refused cause => cause.message
  | negative => "number too small to fit in target type"

/-- The fault as the store tells it, with the name of what the row should be. -/
def RowFault.storeFault (what : String) (fault : RowFault) : StoreFault :=
  .reported .storage ("failed to decode " ++ what ++ " row: " ++ fault.message)

/-- The greatest number of 32 bits with a sign. -/
def greatestInt4 : Nat := 2147483647

/-- The greatest number of 64 bits with a sign. -/
def greatestInt8 : Nat := 9223372036854775807

/-- A counter in a row, cut down to what fits. -/
def int4Of (n : Nat) : Int := (min n greatestInt4 : Nat)

/-- A larger number in a row, cut down to what fits. -/
def int8Of (n : Nat) : Int := (min n greatestInt8 : Nat)

/-- A counter from a row. -/
def counterOf (n : Int) : Except RowFault Nat := if n < 0 then .error .negative else .ok n.toNat

/-! ### Tasks -/

/-- The columns of a task. -/
structure TaskRow where
  id : Uuid
  subject : String
  status : String
  runAfter : Instant
  payload : List UInt8
  maxAttempts : Int
  attempts : Int
  lastError : Option String
  lastAttempt : Option Instant
  createdAt : Instant
  updatedAt : Instant
  deriving DecidableEq, Repr

namespace TaskRow

/-- The names of the columns. -/
def columns : List String :=
  ["id", "subject", "status", "run_after", "payload", "max_attempts", "attempts", "last_error", "last_attempt",
    "created_at", "updated_at"]

/-- The columns as a row. -/
def toRow (r : TaskRow) : Row :=
  [("id", .uuid r.id), ("subject", .text r.subject), ("status", .text r.status), ("run_after", .time r.runAfter),
    ("payload", .bytes r.payload), ("max_attempts", .int4 r.maxAttempts), ("attempts", .int4 r.attempts),
    ("last_error", .ofText? r.lastError), ("last_attempt", .ofTime? r.lastAttempt), ("created_at", .time r.createdAt),
    ("updated_at", .time r.updatedAt)]

/-- Reads the columns of a row, all of them and in order. -/
def ofRow (row : Row) : Except SqlFault TaskRow := do
  .ok {
    id := ← row.want "id" Value.uuid?
    subject := ← row.want "subject" Value.text?
    status := ← row.want "status" Value.text?
    runAfter := ← row.want "run_after" Value.time?
    payload := ← row.want "payload" Value.bytes?
    maxAttempts := ← row.want "max_attempts" Value.int4?
    attempts := ← row.want "attempts" Value.int4?
    lastError := ← row.want? "last_error" Value.text?
    lastAttempt := ← row.want? "last_attempt" Value.time?
    createdAt := ← row.want "created_at" Value.time?
    updatedAt := ← row.want "updated_at" Value.time? }

/-- A task as columns. -/
def ofTask (t : Task) : TaskRow where
  id := t.id.uuid
  subject := t.subject
  status := t.status.word
  runAfter := t.runAfter
  payload := t.payload
  maxAttempts := int4Of t.maxAttempts
  attempts := int4Of t.attempts
  lastError := t.lastError
  lastAttempt := t.lastAttempt
  createdAt := t.createdAt
  updatedAt := t.updatedAt

/-- The task that columns stand for. -/
def toTask (r : TaskRow) : Except RowFault Task := do
  let status ← match TaskStatus.ofWord? r.status with
    | some status => Except.ok status
    | none => .error (.refused (.unknownTaskStatus r.status))
  let maxAttempts ← counterOf r.maxAttempts
  let attempts ← counterOf r.attempts
  .ok {
    id := ⟨r.id⟩, subject := r.subject, status, runAfter := r.runAfter, payload := r.payload, maxAttempts, attempts
    lastError := r.lastError, lastAttempt := r.lastAttempt, createdAt := r.createdAt, updatedAt := r.updatedAt }

end TaskRow

/-- The columns that change when a task does, with their values. -/
def taskChanges (t : Task) : Row :=
  [("status", .text t.status.word), ("run_after", .time t.runAfter), ("attempts", .int4 (int4Of t.attempts)),
    ("last_error", .ofText? t.lastError), ("last_attempt", .ofTime? t.lastAttempt), ("updated_at", .time t.updatedAt)]

/-- Reads a task. -/
def decodeTask (row : Row) : Except StoreFault Task :=
  ((TaskRow.ofRow row).mapError RowFault.column >>= TaskRow.toTask).mapError (RowFault.storeFault "task")

/-! ### Cron jobs -/

/-- The columns of a cron job. -/
structure JobRow where
  id : Uuid
  name : String
  expression : String
  status : String
  subject : String
  payload : List UInt8
  /-- The delay of the tasks in seconds. -/
  delay : Int
  nextRunAt : Instant
  lastRunAt : Option Instant
  createdAt : Instant
  updatedAt : Instant
  deriving DecidableEq, Repr

namespace JobRow

/-- The names of the columns. -/
def columns : List String :=
  ["id", "name", "expression", "status", "subject", "payload", "task_run_after", "next_run_at", "last_run_at",
    "created_at", "updated_at"]

/-- The columns as a row. -/
def toRow (r : JobRow) : Row :=
  [("id", .uuid r.id), ("name", .text r.name), ("expression", .text r.expression), ("status", .text r.status),
    ("subject", .text r.subject), ("payload", .bytes r.payload), ("task_run_after", .int8 r.delay),
    ("next_run_at", .time r.nextRunAt), ("last_run_at", .ofTime? r.lastRunAt), ("created_at", .time r.createdAt),
    ("updated_at", .time r.updatedAt)]

/-- Reads the columns of a row, all of them and in order. -/
def ofRow (row : Row) : Except SqlFault JobRow := do
  .ok {
    id := ← row.want "id" Value.uuid?
    name := ← row.want "name" Value.text?
    expression := ← row.want "expression" Value.text?
    status := ← row.want "status" Value.text?
    subject := ← row.want "subject" Value.text?
    payload := ← row.want "payload" Value.bytes?
    delay := ← row.want "task_run_after" Value.int8?
    nextRunAt := ← row.want "next_run_at" Value.time?
    lastRunAt := ← row.want? "last_run_at" Value.time?
    createdAt := ← row.want "created_at" Value.time?
    updatedAt := ← row.want "updated_at" Value.time? }

/-- A cron job as columns. -/
def ofJob (job : Job) : JobRow where
  id := job.id.uuid
  name := job.name
  expression := job.expression.source
  status := job.status.word
  subject := job.subject
  payload := job.payload
  delay := int8Of job.delay.seconds
  nextRunAt := job.nextRunAt
  lastRunAt := job.lastRunAt
  createdAt := job.createdAt
  updatedAt := job.updatedAt

/-- The cron job that columns stand for. A delay below zero counts as none. -/
def toJob (r : JobRow) : Except RowFault Job := do
  let expression ← (Json.readExpression r.expression).mapError RowFault.refused
  let status ← match JobStatus.ofWord? r.status with
    | some status => Except.ok status
    | none => .error (.refused (.unknownJobStatus r.status))
  .ok {
    id := ⟨r.id⟩, name := r.name, expression, status, subject := r.subject, payload := r.payload
    delay := .ofSeconds r.delay.toNat, nextRunAt := r.nextRunAt, lastRunAt := r.lastRunAt, createdAt := r.createdAt
    updatedAt := r.updatedAt }

end JobRow

/-- The columns that change when a cron job fires, with their values. -/
def jobChanges (job : Job) : Row :=
  [("status", .text job.status.word), ("next_run_at", .time job.nextRunAt), ("last_run_at", .ofTime? job.lastRunAt),
    ("updated_at", .time job.updatedAt)]

/-- The columns that change when a definition is registered under a name that is there already. -/
def redefinedColumns : List String :=
  ["expression", "status", "subject", "payload", "task_run_after", "updated_at"]

/-- Reads a cron job. -/
def decodeJob (row : Row) : Except StoreFault Job :=
  ((JobRow.ofRow row).mapError RowFault.column >>= JobRow.toJob).mapError (RowFault.storeFault "cron job")

end Relational
end DurableQueue
