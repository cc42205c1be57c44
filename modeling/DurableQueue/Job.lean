import DurableQueue.Schedule.Expression
import DurableQueue.Task
import DurableQueue.Text.Blank

/-! Cron jobs: definitions by name that fire on a schedule. Each fire makes one task and moves the job on to the next time
    of its schedule; without a next time the job is disabled. A new definition under the same name leaves the time of the
    next fire as it was. -/

namespace DurableQueue

/-- Whether a cron job fires. -/
inductive JobStatus where
  | active
  | disabled
  deriving DecidableEq, Repr, Inhabited

namespace JobStatus

/-- All statuses. -/
def all : List JobStatus := [active, disabled]

/-- The word for a status. -/
def word : JobStatus → String
  | active => "active"
  | disabled => "disabled"

/-- The status that a word stands for. -/
def ofWord? (s : String) : Option JobStatus := all.find? (·.word = s)

theorem ofWord?_word (s : JobStatus) : ofWord? s.word = some s := by cases s <;> decide

theorem word_of_ofWord? {w : String} {s : JobStatus} (h : ofWord? w = some s) : s.word = w := by
  simpa using List.find?_some h

end JobStatus

/-- A cron job as it is registered. -/
structure JobSpec where
  name : String
  expression : Expression
  status : JobStatus
  /-- The subject of the tasks that the job makes. -/
  subject : String
  payload : List UInt8
  /-- How long after a fire its task may run. -/
  delay : Span
  deriving DecidableEq, Repr

/-- A cron job that has been stored. -/
structure Job where
  id : JobId
  name : String
  expression : Expression
  status : JobStatus
  subject : String
  payload : List UInt8
  delay : Span
  /-- The job does not fire before this time. -/
  nextRunAt : Instant
  lastRunAt : Option Instant
  createdAt : Instant
  updatedAt : Instant
  deriving DecidableEq, Repr

/-- What a fire made: a task, and the news whether the schedule has come to its end. -/
structure Fire where
  task : Task
  exhausted : Bool
  deriving DecidableEq, Repr

/-- A change of a job in its place: what it writes stays even if it has no answer. -/
abbrev JobM := ExceptT (Halt Refusal) (StateM Job)

/-- Refuses a blank name, a delay that is too long, and a subject that no task may have. -/
def JobSpec.validate (spec : JobSpec) : Except Refusal Unit :=
  if Text.allBlank spec.name then .error .blankJobName
  else if longestDelay < spec.delay then .error (.jobDelayTooLong spec.name spec.delay)
  else Subject.validate spec.subject

namespace Job

/-- The status that a job has when its schedule goes on, or does not. -/
def statusFor (wanted : JobStatus) (next : Option Instant) : JobStatus := if next.isSome then wanted else .disabled

/-- The job that a definition makes the first time. Without a time to fire it is disabled. -/
def create (id : JobId) (spec : JobSpec) (now : Instant) : Outcome Refusal Job := do
  let next ← spec.expression.next now
  .ok {
    id := id
    name := spec.name
    expression := spec.expression
    status := statusFor spec.status next
    subject := spec.subject
    payload := spec.payload
    delay := spec.delay
    nextRunAt := next.getD now
    lastRunAt := none
    createdAt := now
    updatedAt := now }

/-- The job under a new definition, which leaves its identity and its times to run. -/
def apply (job : Job) (spec : JobSpec) (now : Instant) : Outcome Refusal Job := do
  let next ← spec.expression.next now
  .ok { job with
    expression := spec.expression
    status := statusFor spec.status next
    subject := spec.subject
    payload := spec.payload
    delay := spec.delay
    updatedAt := now }

/-- Whether the job fires. -/
def isDue (job : Job) (now : Instant) : Bool := job.status = .active && job.nextRunAt ≤ now

/-- The job after a fire, given the time of its next one. -/
def advance (job : Job) (next : Option Instant) (now : Instant) : Job :=
  { job with
    status := if next.isSome then job.status else .disabled
    nextRunAt := next.getD job.nextRunAt
    lastRunAt := some now
    updatedAt := now }

/-- Fires a job in its place, if it is due: the job moves on, and a task with the given identifier is made. -/
def fireInPlace (id : TaskId) (now : Instant) (maxAttempts : Nat) : JobM Fire := do
  let job ← get
  if !job.isDue now then throw (.refused (.jobNotDue job.name))
  else
    let runAfter ← ofExcept (Outcome.ofExcept (now.delayed job.delay))
    let next ← ofExcept (job.expression.next now)
    modify (·.advance next now)
    let job ← get
    return ⟨.create id ⟨job.subject, job.payload, some runAfter, maxAttempts⟩ now, next.isNone⟩

/-- Fires a copy of a job: the job as it has moved on, and what the fire made. -/
def fire (job : Job) (id : TaskId) (now : Instant) (maxAttempts : Nat) : Outcome Refusal (Job × Fire) :=
  match fireInPlace id now maxAttempts job with
  | (.ok made, next) => .ok (next, made)
  | (.error h, _) => .error h

end Job
end DurableQueue
