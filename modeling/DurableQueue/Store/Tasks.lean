import DurableQueue.Store
import DurableQueue.Subject.Pattern

/-! The calls of the store that concern tasks. -/

namespace DurableQueue
namespace Store

open StoreM

/-- Looks at a batch of tasks before any of them is written: each has to be new, also among those before it, and to have
    a subject. -/
def checkBatch (stored : Table Task.id) : List TaskId → List Task → Except StoreFault Unit
  | _, [] => .ok ()
  | seen, t :: rest =>
    if stored.contains t.id ∨ t.id ∈ seen then .error (.taskExists t.id)
    else if t.subject = "" then .error (.emptySubject t.id)
    else checkBatch stored (t.id :: seen) rest

/-- Writes a batch of new tasks, all or none. -/
def insertAll (tasks : List Task) : StoreM Unit := do
  match checkBatch (← get).tasks [] tasks with
  | .error fault => refuse fault
  | .ok () => tasks.forM putTask

/-- Writes a batch of new tasks, all or none. -/
def insertTasks (tasks : List Task) : StoreM Unit := locked (insertAll tasks)

/-- The task with an identifier. -/
def getTask (id : TaskId) : StoreM (Option Task) := locked do return (← get).tasks.get? id

/-- Whether one task is claimed before another: by the time from which it may run, and then by identifier. -/
def goesBefore (a b : Task) : Bool := a.runAfter < b.runAfter || (a.runAfter = b.runAfter && a.id < b.id)

/-- The task that is claimed first. -/
def firstOf : List Task → Option Task
  | [] => none
  | t :: rest =>
    match firstOf rest with
    | some u => some (if goesBefore u t then u else t)
    | none => some t

/-- Whether a task can be claimed under a pattern. -/
def isClaimable (pattern : Pattern) (now : Instant) (t : Task) : Bool := t.isDue now && pattern.accepts t.subject

/-- Claims the first task that can be claimed under a pattern. -/
def claimNext (pattern : Pattern) (now : Instant) : StoreM (Option Task) := locked do
  match firstOf ((← get).tasks.rows.filter (isClaimable pattern now)) with
  | none => return none
  | some first => do
    match (← get).tasks.get? first.id with
    | none => refuse (.taskNotFound first.id)
    | some t => do
      let claimed ← ofRule (t.claim now)
      putTask claimed
      return some claimed

/-- Changes one task. -/
def changeTask {α : Type} (id : TaskId) (change : Task → Outcome Refusal (Task × α)) : StoreM α := locked do
  match (← get).tasks.get? id with
  | none => refuse (.taskNotFound id)
  | some t => do
    let (changed, answer) ← ofOutcome (change t)
    putTask changed
    return answer

/-- Completes a running task. -/
def complete (id : TaskId) (now : Instant) : StoreM Unit :=
  changeTask id fun t => .ofExcept ((t.complete now).map fun t => (t, ()))

/-- Ends the attempt of a running task with an error. -/
def failAttempt (id : TaskId) (error : String) (now : Instant) : StoreM Verdict :=
  changeTask id fun t => t.failAttempt error now

/-- Puts a task back without counting a failure. -/
def requeue (id : TaskId) (now : Instant) : StoreM Unit := changeTask id fun t => (t.requeue now).map fun t => (t, ())

/-- Puts back those of some tasks that have been running since before a given time, and counts them. -/
def resetRows (olderThan now : Instant) : List Task → StoreM Nat
  | [] => return 0
  | t :: rest =>
    if t.isStuck olderThan then do
      putTask (← ofRule (t.resetStuck now))
      return (← resetRows olderThan now rest) + 1
    else resetRows olderThan now rest

/-- Puts back all tasks that have been running since before a given time, and counts them. -/
def resetStuck (olderThan now : Instant) : StoreM Nat := locked do resetRows olderThan now (← get).tasks.rows

/-- The number of tasks in each status. -/
def countTasks (tasks : List Task) : TaskCounts where
  pending := tasks.countP (·.status = .pending)
  running := tasks.countP (·.status = .running)
  completed := tasks.countP (·.status = .completed)
  failed := tasks.countP (·.status = .failed)

/-- The number of tasks in each status. -/
def stats : StoreM TaskCounts := locked do return countTasks (← get).tasks.rows

end Store
end DurableQueue
