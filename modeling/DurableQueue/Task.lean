import DurableQueue.Delay
import DurableQueue.Identifier
import DurableQueue.Subject

/-! Tasks and the way they go: a pending task is claimed and runs until it is completed, has failed, or is put back to
    wait. A failed attempt counts and is retried later, until no attempt is left. The time before which a task does not
    run never moves backwards. -/

namespace DurableQueue

/-- A unit of work that has been stored. -/
structure Task where
  id : TaskId
  subject : String
  status : TaskStatus
  /-- The task is not claimed before this time. -/
  runAfter : Instant
  payload : List UInt8
  maxAttempts : Nat
  /-- The failed attempts that count. -/
  attempts : Nat
  lastError : Option String
  /-- When the task was claimed last. -/
  lastAttempt : Option Instant
  createdAt : Instant
  updatedAt : Instant
  deriving DecidableEq, Repr

/-- A task as its producer describes it. -/
structure NewTask where
  subject : String
  payload : List UInt8
  /-- The earliest time to run; none stands for at once. -/
  runAfter : Option Instant
  maxAttempts : Nat
  deriving DecidableEq, Repr

/-- What became of a failed attempt. -/
inductive Verdict where
  /-- There is another attempt, not before the given time. -/
  | retry (runAfter : Instant)
  /-- No attempt was left. -/
  | failed
  deriving DecidableEq, Repr

namespace NewTask

/-- A task to run at once with the usual number of attempts. -/
def of (subject : String) (payload : List UInt8) : NewTask := ⟨subject, payload, none, defaultMaxAttempts⟩

/-- The task, delayed from now on. -/
def delayed (new : NewTask) (now : Instant) (delay : Span) : Except Refusal NewTask := do
  .ok { new with runAfter := some (← now.delayed delay) }

/-- Refuses a subject that no task may have, and a time that is too far ahead of now. -/
def validate (new : NewTask) (now : Instant) : Except Refusal Unit := do
  Subject.validate new.subject
  match new.runAfter with
  | none => .ok ()
  | some t =>
    let latest ← now.delayed longestDelay
    if latest < t then .error (.tooFarAhead t) else .ok ()

end NewTask

namespace Task

/-- The task that a producer has described, with its identifier, as it is first stored. -/
def create (id : TaskId) (new : NewTask) (now : Instant) : Task where
  id := id
  subject := new.subject
  status := .pending
  runAfter := new.runAfter.getD now
  payload := new.payload
  maxAttempts := new.maxAttempts
  attempts := 0
  lastError := none
  lastAttempt := none
  createdAt := now
  updatedAt := now

/-- Whether the task can be claimed. -/
def isDue (t : Task) (now : Instant) : Bool := t.status = .pending && t.runAfter ≤ now

/-- Whether the task has been running since before a given time. -/
def isStuck (t : Task) (cutoff : Instant) : Bool := t.status = .running && t.lastAttempt.any (· < cutoff)

/-- Claims a pending task. -/
def claim (t : Task) (now : Instant) : Except Refusal Task :=
  if t.status = .pending then .ok { t with status := .running, lastAttempt := some now, updatedAt := now }
  else .error (.illegalAction .claim t.status)

/-- Completes a running task. -/
def complete (t : Task) (now : Instant) : Except Refusal Task :=
  if t.status = .running then .ok { t with status := .completed, updatedAt := now }
  else .error (.illegalAction .ack t.status)

/-- Ends the attempt of a running task with an error. The attempt counts if there may be another one, and the next one
    waits longer than this one did. -/
def failAttempt (t : Task) (error : String) (now : Instant) : Outcome Refusal (Task × Verdict) :=
  if t.status ≠ .running then .refuse (.illegalAction .nack t.status)
  else if t.maxAttempts ≤ t.attempts then
    .ok ({ t with status := .failed, lastError := some error, updatedAt := now }, .failed)
  else do
    let attempts := t.attempts + 1
    let earliest ← .ofOption (now.add? (backoff attempts))
    let runAfter := t.runAfter.later earliest
    .ok ({ t with status := .pending, attempts, runAfter, lastError := some error, updatedAt := now }, .retry runAfter)

/-- Puts a task back, a little delayed. The attempt under way does not count, and the last one that did is taken off. -/
def requeue (t : Task) (now : Instant) : Outcome Refusal Task :=
  if t.status.isTerminal then .refuse (.illegalAction .requeue t.status)
  else do
    let earliest ← .ofOption (now.add? requeueDelay)
    .ok { t with status := .pending, attempts := t.attempts - 1, runAfter := t.runAfter.later earliest, updatedAt := now }

/-- Puts back a running task whose consumer is gone. -/
def resetStuck (t : Task) (now : Instant) : Except Refusal Task :=
  if t.status = .running then .ok { t with status := .pending, runAfter := t.runAfter.later now, updatedAt := now }
  else .error (.illegalAction .resetStuck t.status)

end Task
end DurableQueue
