import DurableQueue.Relational.Rows
import DurableQueue.Subject.Pattern

/-! The statements that a store sends to a relational database, and conversations: what is sent next depends on what the
    database has answered. Whatever the database is, a conversation says what it is told. -/

namespace DurableQueue
namespace Relational

/-- A statement with the values that it carries. -/
inductive Statement where
  | begin
  | commit
  | rollback
  /-- The task with an identifier. -/
  | selectTask (id : TaskId)
  /-- The task with an identifier, and nobody else may change it now. -/
  | lockTask (id : TaskId)
  /-- The first task under a pattern that may run, marked as claimed. -/
  | claimTask (now : Instant) (regex : String)
  /-- Other values in some columns of a task. -/
  | updateTask (id : TaskId) (changes : Row)
  /-- All tasks that have been running since before a given time, marked as pending. -/
  | resetStuck (olderThan now : Instant)
  /-- The number of tasks in each status. -/
  | countTasks
  | insertTask (row : Row)
  /-- A new cron job, or other values in some columns of the one with its name. -/
  | upsertJob (row : Row)
  | selectJob (name : String)
  | listJobs
  /-- The first cron jobs that are due, and nobody else may change them now. -/
  | selectDue (now : Instant) (limit : Int)
  /-- Other values in some columns of a cron job. -/
  | updateJob (id : JobId) (changes : Row)
  /-- The first question before the tables are brought up to date. -/
  | inspectSchema
  deriving DecidableEq, Repr

namespace Statement

/-- The word that the statement begins with. -/
def verb : Statement → String
  | begin => "BEGIN"
  | commit => "COMMIT"
  | rollback => "ROLLBACK"
  | selectTask _ | lockTask _ | countTasks | selectJob _ | listJobs | selectDue .. | inspectSchema => "SELECT"
  | claimTask .. | updateTask .. | updateJob .. => "UPDATE"
  | resetStuck .. => "WITH"
  | insertTask _ | upsertJob _ => "INSERT"

/-- The values that the statement carries, in order. -/
def values : Statement → List Value
  | begin | commit | rollback | countTasks | listJobs | inspectSchema => []
  | selectTask id | lockTask id => [.uuid id.uuid]
  | claimTask now regex => [.time now, .text regex]
  | updateTask id changes => .uuid id.uuid :: changes.map (·.2)
  | resetStuck olderThan now => [.time olderThan, .time now]
  | insertTask row | upsertJob row => row.map (·.2)
  | selectJob name => [.text name]
  | selectDue now limit => [.time now, .int8 limit]
  | updateJob id changes => .uuid id.uuid :: changes.map (·.2)

/-- The columns of the rows that answer the statement. -/
def columns : Statement → List String
  | selectTask _ | lockTask _ | claimTask .. => TaskRow.columns
  | upsertJob _ | selectJob _ | listJobs | selectDue .. => JobRow.columns
  | countTasks => ["status", "count"]
  | _ => []

/-- Whether the statement opens or closes a transaction. -/
def isControl : Statement → Bool
  | begin | commit | rollback => true
  | _ => false

end Statement

/-- What a database answers: rows, and the number of rows that it has touched. -/
structure Answer where
  rows : List Row
  affected : Nat
  deriving DecidableEq, Repr

/-- An answer, or the reason that there is none. -/
abbrev Reply := Except SqlFault Answer

/-- A conversation with a database. -/
inductive Dialogue (α : Type) where
  | done (result : α)
  | send (statement : Statement) (next : Reply → Dialogue α)

namespace Dialogue

/-- One conversation after the other. -/
def bind {α β : Type} : Dialogue α → (α → Dialogue β) → Dialogue β
  | done a, f => f a
  | send s next, f => send s fun reply => bind (next reply) f

instance : Monad Dialogue where
  pure := done
  bind := bind

/-- A conversation with a database that has a state of its own, and the state that it leaves. -/
def run {σ α : Type} (database : σ → Statement → Reply × σ) : Dialogue α → σ → α × σ
  | done a, state => (a, state)
  | send s next, state =>
    let (reply, state) := database state s
    run database (next reply) state

end Dialogue

/-- A call of the store as a conversation. -/
abbrev Session := ExceptT (Halt StoreFault) Dialogue

namespace Session

/-- Ends the call with a fault. -/
def refuse {α : Type} (fault : StoreFault) : Session α := throw (.refused fault)

/-- A check as part of a call. -/
def ofExcept {α : Type} : Except StoreFault α → Session α
  | .ok a => pure a
  | .error fault => refuse fault

/-- A rule as part of a call. -/
def ofRule {α : Type} : Except Refusal α → Session α
  | .ok a => pure a
  | .error cause => refuse (.refused cause)

/-- A rule that may crash as part of a call. -/
def ofOutcome {α : Type} : Outcome Refusal α → Session α
  | .ok a => pure a
  | .error h => throw (h.map .refused)

/-- Sends a statement and hands on whatever the database replies. -/
def ask (s : Statement) : Session Reply := ExceptT.lift (.send s .done)

/-- Sends a statement. `doing` names what it is for. -/
def query (doing : String) (s : Statement) : Session Answer := do
  match ← ask s with
  | .ok answer => return answer
  | .error fault => refuse (fault.storeFault doing)

/-- Does something in a transaction: all of it, or with a fault nothing. -/
def inTransaction {α : Type} (call : Session α) : Session α := do
  let _ ← query "begin_transaction" .begin
  match ← ExceptT.lift call.run with
  | .ok a => do
    let _ ← query "commit_transaction" .commit
    return a
  | .error h => do
    let _ ← ask .rollback
    throw h

end Session
end Relational
end DurableQueue
