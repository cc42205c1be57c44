/-! The status of a task, and the actions that change it. -/

namespace DurableQueue

/-- Where a task stands. -/
inductive TaskStatus where
  /-- Waiting to be claimed. -/
  | pending
  /-- Claimed by a consumer. -/
  | running
  /-- Handled with success. -/
  | completed
  /-- Out of attempts. -/
  | failed
  deriving DecidableEq, Repr, Inhabited

namespace TaskStatus

/-- All statuses. -/
def all : List TaskStatus := [pending, running, completed, failed]

/-- The word for a status. -/
def word : TaskStatus → String
  | pending => "pending"
  | running => "running"
  | completed => "completed"
  | failed => "failed"

/-- The status that a word stands for. -/
def ofWord? (s : String) : Option TaskStatus := all.find? (·.word = s)

/-- Whether no action leaves the status. -/
def isTerminal : TaskStatus → Bool
  | completed | failed => true
  | pending | running => false

theorem ofWord?_word (s : TaskStatus) : ofWord? s.word = some s := by cases s <;> decide

theorem word_of_ofWord? {w : String} {s : TaskStatus} (h : ofWord? w = some s) : s.word = w := by
  simpa using List.find?_some h

end TaskStatus

/-- What can be done with a task. -/
inductive Action where
  | claim
  | ack
  | nack
  | requeue
  | resetStuck
  deriving DecidableEq, Repr

/-- The word for an action. -/
def Action.word : Action → String
  | claim => "claim"
  | ack => "ack"
  | nack => "nack"
  | requeue => "requeue"
  | resetStuck => "reset_stuck"

end DurableQueue
