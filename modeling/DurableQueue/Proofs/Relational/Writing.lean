import DurableQueue.Proofs.Relational.Course
import DurableQueue.Relational.Calls
import Mathlib.Data.List.Forall2

/-! The calls that write. What a database answers may stand in the way of a call, and if nothing does, the call has written
    all that it has to write: both are said here in terms of what has been exchanged, and not of how the calls are made. -/

namespace DurableQueue
namespace Relational

open Session

/-! ### What answers say -/

/-- What is read from the first row, which has to be there. -/
def readFirst {α : Type} (missing : StoreFault) (read : Row → Except StoreFault α) (answer : Answer) :
    Except StoreFault α :=
  match answer.rows with
  | [] => .error missing
  | row :: _ => read row

/-- What has been read is put to a rule. -/
def judged {α β : Type} (read : Except StoreFault α) (rule : α → Outcome Refusal β) : Outcome StoreFault β := do
  let a ← .ofExcept read
  .mapCause .refused (rule a)

theorem judged_eq_error_iff {α β : Type} {read : Except StoreFault α} {rule : α → Outcome Refusal β}
    {h : Halt StoreFault} : judged read rule = .error h ↔
      (∃ fault, read = .error fault ∧ h = .refused fault) ∨
        ∃ a cause, read = .ok a ∧ rule a = .error cause ∧ h = cause.map .refused := by
  cases read with
  | error fault => simp [judged, Outcome.ofExcept, bind, Except.bind, eq_comm]
  | ok a => cases hr : rule a <;> simp [judged, Outcome.ofExcept, Outcome.mapCause, bind, Except.bind, hr, eq_comm]

theorem judged_eq_ok_iff {α β : Type} {read : Except StoreFault α} {rule : α → Outcome Refusal β} {b : β} :
    judged read rule = .ok b ↔ ∃ a, read = .ok a ∧ rule a = .ok b := by
  cases read with
  | error fault => simp [judged, Outcome.ofExcept, bind, Except.bind]
  | ok a => cases hr : rule a <;> simp [judged, Outcome.ofExcept, Outcome.mapCause, bind, Except.bind, hr]

theorem course_judged_iff {α β γ : Type} {log : List Exchange} {read : Except StoreFault β}
    {rule : β → Outcome Refusal γ} {f : γ → Session α} {r : Except (Halt StoreFault) α} :
    Course (ofExcept read >>= fun b => ofOutcome (rule b) >>= f) log r ↔
      (∃ h, judged read rule = .error h ∧ log = [] ∧ r = .error h) ∨
        ∃ c, judged read rule = .ok c ∧ Course (f c) log r := by
  rw [course_ofExcept_bind_iff]
  constructor
  · rintro (⟨fault, rfl, rfl, rfl⟩ | ⟨b, rfl, course⟩)
    · exact Or.inl ⟨_, judged_eq_error_iff.mpr (Or.inl ⟨fault, rfl, rfl⟩), rfl, rfl⟩
    · rcases course_ofOutcome_bind_iff.mp course with ⟨h, hr, rfl, rfl⟩ | ⟨c, hr, course⟩
      · exact Or.inl ⟨_, judged_eq_error_iff.mpr (Or.inr ⟨b, h, rfl, hr, rfl⟩), rfl, rfl⟩
      · exact Or.inr ⟨c, judged_eq_ok_iff.mpr ⟨b, rfl, hr⟩, course⟩
  · rintro (⟨h, hj, rfl, rfl⟩ | ⟨c, hj, course⟩)
    · rcases judged_eq_error_iff.mp hj with ⟨fault, rfl, rfl⟩ | ⟨b, h, rfl, hr, rfl⟩
      · exact Or.inl ⟨fault, rfl, rfl, rfl⟩
      · exact Or.inr ⟨b, rfl, course_ofOutcome_bind_iff.mpr (Or.inl ⟨h, hr, rfl, rfl⟩)⟩
    · obtain ⟨b, rfl, hr⟩ := judged_eq_ok_iff.mp hj
      exact Or.inr ⟨b, rfl, course_ofOutcome_bind_iff.mpr (Or.inr ⟨c, hr, course⟩)⟩

/-! ### The calls -/

/-- What a consumer says about a task that it has. -/
inductive TaskChange where
  | complete (now : Instant)
  | failAttempt (error : String) (now : Instant)
  | requeue (now : Instant)

namespace TaskChange

def Result : TaskChange → Type
  | failAttempt .. => Verdict
  | complete _ | requeue _ => Unit

/-- The name of the call in faults. -/
def doing : TaskChange → String
  | complete _ => "complete"
  | failAttempt .. => "fail_attempt"
  | requeue _ => "requeue"

def apply : (change : TaskChange) → Task → Outcome Refusal (Task × change.Result)
  | complete now, t => .ofExcept ((t.complete now).map fun t => (t, ()))
  | failAttempt error now, t => t.failAttempt error now
  | requeue now, t => (t.requeue now).map fun t => (t, ())

def session (id : TaskId) : (change : TaskChange) → Session change.Result
  | complete now => Relational.complete id now
  | failAttempt error now => Relational.failAttempt id error now
  | requeue now => Relational.requeue id now

theorem session_eq (id : TaskId) (change : TaskChange) : change.session id = changeTask change.doing id change.apply := by
  cases change <;> rfl

end TaskChange

inductive Writing where
  | insertTasks (tasks : List Task)
  | changeTask (id : TaskId) (change : TaskChange)
  | upsertJobs (ids : Nat → JobId) (specs : List JobSpec) (now : Instant)
  | fireDue (ids : Nat → TaskId) (now : Instant) (limit maxAttempts : Nat)

namespace Writing

def Result : Writing → Type
  | insertTasks _ => Unit
  | changeTask _ change => change.Result
  | upsertJobs .. => List Job
  | fireDue .. => List FiredJob

def session : (call : Writing) → Session call.Result
  | insertTasks tasks => Relational.insertTasks tasks
  | changeTask id change => change.session id
  | upsertJobs ids specs now => Relational.upsertJobs ids specs now
  | fireDue ids now limit maxAttempts => Relational.fireDue ids now limit maxAttempts

/-- The name of a statement in the fault that it may have. -/
def doing (call : Writing) : Statement → String
  | .begin => "begin_transaction"
  | .commit => "commit_transaction"
  | .insertTask _ => "insert_task"
  | .upsertJob _ => "upsert_cron_job"
  | .selectDue .. => "select_due_cron_jobs"
  | .updateJob .. => "advance_cron_job"
  | .lockTask _ | .updateTask .. =>
    match call with
    | changeTask _ change => change.doing
    | _ => ""
  | _ => ""

def readJob : Answer → Except StoreFault Job := readFirst (SqlFault.noRow.storeFault "upsert_cron_job") decodeJob

def readTask (id : TaskId) : Answer → Except StoreFault Task := readFirst (.taskNotFound id) decodeTask

/-- What has been exchanged stands in the way of a call, for a reason. -/
inductive Stuck : Writing → List Exchange → Halt StoreFault → Prop where
  /-- A statement has failed. -/
  | failed {call : Writing} {front : List Exchange} {s : Statement} {fault : SqlFault} (sent : s ≠ .rollback) :
    Stuck call (front ++ [⟨s, .error fault⟩]) (.refused (fault.storeFault (call.doing s)))
  /-- There is no such task, or the row is none, or the task cannot change in this way. -/
  | task {id : TaskId} {change : TaskChange} {front : List Exchange} {answer : Answer} {h : Halt StoreFault}
    (bad : judged (readTask id answer) change.apply = .error h) :
    Stuck (changeTask id change) (front ++ [⟨.lockTask id, .ok answer⟩]) h
  /-- No row tells what a definition has led to, or the row is no job. -/
  | job {ids : Nat → JobId} {specs : List JobSpec} {now : Instant} {front : List Exchange} {row : Row} {answer : Answer}
    {fault : StoreFault} (bad : readJob answer = .error fault) :
    Stuck (upsertJobs ids specs now) (front ++ [⟨.upsertJob row, .ok answer⟩]) (.refused fault)
  /-- When some of the selected jobs have moved on, the row of the next one is none, or the job does not fire. -/
  | due {ids : Nat → TaskId} {now : Instant} {limit maxAttempts : Nat} {opened : Exchange} {answer : Answer}
    {moved : List Exchange} {row : Row} {h : Halt StoreFault}
    (earlier : ∀ e ∈ moved, ∃ id changes reply, e = ⟨.updateJob id changes, .ok reply⟩)
    (next : answer.rows[moved.length]? = some row)
    (bad : judged (decodeJob row) (·.fire (ids moved.length) now maxAttempts) = .error h) :
    Stuck (fireDue ids now limit maxAttempts) (opened :: ⟨.selectDue now (int8Of limit), .ok answer⟩ :: moved) h

def insertion (t : Task) : Statement := .insertTask (TaskRow.ofTask t).toRow

/-- A call has been told this between begin and commit of its transaction, has written all that it has to write, and gives
    a result in keeping with what it has read. -/
def Complete : (call : Writing) → List Exchange → call.Result → Prop
  | insertTasks tasks, body, _ => body.map (·.statement) = tasks.map insertion
  | changeTask id change, body, result => ∃ answer t reply, judged (readTask id answer) change.apply = .ok (t, result) ∧
    body = [⟨.lockTask id, .ok answer⟩, ⟨.updateTask t.id (taskChanges t), reply⟩]
  | upsertJobs ids specs now, body, jobs =>
    List.Forall₂ (fun (spec, place) e => ∃ fresh, Job.create (ids place) spec now = .ok fresh ∧
      e.statement = .upsertJob (JobRow.ofJob fresh).toRow) specs.zipIdx body ∧
    List.Forall₂ (fun e job => ∃ answer, e.reply = .ok answer ∧ readJob answer = .ok job) body jobs
  | fireDue ids now limit maxAttempts, body, fired => ∃ answer rest,
    body = ⟨.selectDue now (int8Of limit), .ok answer⟩ :: rest ∧
    List.Forall₂ (fun (row, place) f => judged (decodeJob row) (·.fire (ids place) now maxAttempts) = .ok (f.job, f.fire))
      answer.rows.zipIdx fired ∧
    rest.map (·.statement) =
      fired.map (fun f => .updateJob f.job.id (jobChanges f.job)) ++ fired.map fun f => insertion f.fire.task

end Writing
end Relational
end DurableQueue
