import DurableQueue.Relational.Statement
import DurableQueue.Store.Jobs

/-! The calls of a store that keeps its tables in a relational database. They follow the same rules as those of a store
    that keeps its tables itself; a call with more than one statement is a transaction. -/

namespace DurableQueue
namespace Relational

open Session

/-- The task in the first row, if there is a row. -/
def firstTask (answer : Answer) : Session (Option Task) :=
  match answer.rows with
  | [] => return none
  | row :: _ => return some (← ofExcept (decodeTask row))

/-- The cron job in the first row, if there is a row. -/
def firstJob (answer : Answer) : Session (Option Job) :=
  match answer.rows with
  | [] => return none
  | row :: _ => return some (← ofExcept (decodeJob row))

/-! ### Tasks -/

/-- Writes tasks one after the other. -/
def insertRows : List Task → Session Unit
  | [] => return ()
  | t :: rest => do
    let _ ← query "insert_task" (.insertTask (TaskRow.ofTask t).toRow)
    insertRows rest

/-- Writes a batch of new tasks, all or none. -/
def insertTasks (tasks : List Task) : Session Unit :=
  if tasks.isEmpty then return () else inTransaction (insertRows tasks)

/-- The task with an identifier. -/
def getTask (id : TaskId) : Session (Option Task) := do firstTask (← query "get_task" (.selectTask id))

/-- Claims the first task that can be claimed under a pattern. -/
def claimNext (pattern : Pattern) (now : Instant) : Session (Option Task) := do
  firstTask (← query "claim_next" (.claimTask now pattern.regex))

/-- Changes one task. -/
def changeTask {α : Type} (doing : String) (id : TaskId) (change : Task → Outcome Refusal (Task × α)) : Session α :=
  inTransaction do
    match ← firstTask (← query doing (.lockTask id)) with
    | none => refuse (.taskNotFound id)
    | some t => do
      let (changed, answer) ← ofOutcome (change t)
      let _ ← query doing (.updateTask changed.id (taskChanges changed))
      return answer

/-- Completes a running task. -/
def complete (id : TaskId) (now : Instant) : Session Unit :=
  changeTask "complete" id fun t => .ofExcept ((t.complete now).map fun t => (t, ()))

/-- Ends the attempt of a running task with an error. -/
def failAttempt (id : TaskId) (error : String) (now : Instant) : Session Verdict :=
  changeTask "fail_attempt" id fun t => t.failAttempt error now

/-- Puts a task back without counting a failure. -/
def requeue (id : TaskId) (now : Instant) : Session Unit :=
  changeTask "requeue" id fun t => (t.requeue now).map fun t => (t, ())

/-- Puts back all tasks that have been running since before a given time, and counts them. -/
def resetStuck (olderThan now : Instant) : Session Nat := do
  return (← query "reset_stuck" (.resetStuck olderThan now)).affected

/-- Notes the number of tasks in a status. -/
def setCount (counts : TaskCounts) (status : TaskStatus) (n : Nat) : TaskCounts :=
  match status with
  | .pending => { counts with pending := n }
  | .running => { counts with running := n }
  | .completed => { counts with completed := n }
  | .failed => { counts with failed := n }

/-- Adds up rows of a status and a number. A number below zero counts as none. -/
def countRows : TaskCounts → List Row → Except StoreFault TaskCounts
  | counts, [] => .ok counts
  | counts, row :: rest => do
    let word ← (row.want "status" Value.text?).mapError (·.storeFault "stats")
    let n ← (row.want "count" Value.int8?).mapError (·.storeFault "stats")
    match TaskStatus.ofWord? word with
    | none => .error (.refused (.unknownTaskStatus word))
    | some status => countRows (setCount counts status n.toNat) rest

/-- The number of tasks in each status. -/
def stats : Session TaskCounts := do ofExcept (countRows {} (← query "stats" .countTasks).rows)

/-! ### Cron jobs -/

/-- Registers definitions one after the other, with identifiers from the given place of the supply on. -/
def upsertFrom (ids : Nat → JobId) (now : Instant) : Nat → List JobSpec → Session (List Job)
  | _, [] => return []
  | place, spec :: rest => do
    let fresh ← ofOutcome (Job.create (ids place) spec now)
    match ← firstJob (← query "upsert_cron_job" (.upsertJob (JobRow.ofJob fresh).toRow)) with
    | none => refuse (SqlFault.noRow.storeFault "upsert_cron_job")
    | some job => return job :: (← upsertFrom ids now (place + 1) rest)

/-- Registers definitions, all of which have to be valid, and gives the jobs in the same order. -/
def upsertJobs (ids : Nat → JobId) (specs : List JobSpec) (now : Instant) : Session (List Job) := do
  ofRule (specs.forM JobSpec.validate)
  inTransaction (upsertFrom ids now 0 specs)

/-- The job with a name. -/
def getJob (name : String) : Session (Option Job) := do firstJob (← query "get_cron_job" (.selectJob name))

/-- All jobs by name. -/
def listJobs : Session (List Job) := do ofExcept ((← query "list_cron_jobs" .listJobs).rows.mapM decodeJob)

/-- Fires the jobs of some rows one after the other, with identifiers from the given place of the supply on. -/
def fireFrom (ids : Nat → TaskId) (now : Instant) (maxAttempts : Nat) : Nat → List Row → Session (List FiredJob)
  | _, [] => return []
  | place, row :: rest => do
    let job ← ofExcept (decodeJob row)
    let (job, fire) ← ofOutcome (job.fire (ids place) now maxAttempts)
    let _ ← query "advance_cron_job" (.updateJob job.id (jobChanges job))
    return ⟨job, fire⟩ :: (← fireFrom ids now maxAttempts (place + 1) rest)

/-- Fires the jobs that are due, at most `limit`, and writes the tasks that they make. -/
def fireDue (ids : Nat → TaskId) (now : Instant) (limit maxAttempts : Nat) : Session (List FiredJob) := inTransaction do
  let answer ← query "select_due_cron_jobs" (.selectDue now (int8Of limit))
  let fired ← fireFrom ids now maxAttempts 0 answer.rows
  insertRows (fired.map (·.fire.task))
  return fired

/-! ### Tables -/

/-- Brings the tables up to date, as far as that is known before the database has answered: the first question has to
    have an answer. -/
def migrate : Session Unit := do
  match ← ask .inspectSchema with
  | .ok ⟨_ :: _, _⟩ => return ()
  | .ok ⟨[], _⟩ => refuse (migrationFault .noRow)
  | .error fault => refuse (migrationFault fault)
where
  /-- The fault as the store tells it. -/
  migrationFault (fault : SqlFault) : StoreFault :=
    .reported .storage ("migration failed: while executing migrations: " ++ fault.message)

end Relational
end DurableQueue
