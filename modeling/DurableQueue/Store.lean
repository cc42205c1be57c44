import DurableQueue.Job
import DurableQueue.Table

/-! The store: a table of tasks and a table of cron jobs behind one lock. A call that takes the lock works on the tables
    in place, so what it has written stays written if it is refused afterwards; that no call is refused after its first
    write is a property of the calls. A call that crashes while it holds the lock poisons it, and no later call gets it. -/

namespace DurableQueue

/-- Both tables. -/
structure Store where
  tasks : Table Task.id := Table.empty
  jobs : Table Job.name := Table.empty
  /-- A call has crashed while it held the lock. -/
  poisoned : Bool := false
  deriving DecidableEq

/-- The kinds in which a database tells that a statement has failed. -/
inductive StorageKind where
  | conflict
  | constraint
  | storage
  deriving DecidableEq, Repr

/-- Why a store did not do what it was asked for. -/
inductive StoreFault where
  /-- There is no task with the identifier. -/
  | taskNotFound (id : TaskId)
  /-- There is a task with the identifier already. -/
  | taskExists (id : TaskId)
  /-- A task has no subject. -/
  | emptySubject (id : TaskId)
  /-- A value or a change is refused. -/
  | refused (cause : Refusal)
  /-- The lock is poisoned. -/
  | poisoned
  /-- What is below the store has told so. -/
  | reported (kind : StorageKind) (text : String)
  deriving DecidableEq, Repr

namespace StoreFault

/-- A fault that is told in words. -/
def told : StorageKind → String → String
  | .conflict, text => "conflict: " ++ text
  | .constraint, text => "constraint violation: " ++ text
  | .storage, text => "storage error: " ++ text

/-- What a reader of the message is told. -/
def message : StoreFault → String
  | taskNotFound id => "task not found: " ++ id.text
  | taskExists id => told .conflict ("task " ++ id.text ++ " already exists")
  | emptySubject id => told .constraint ("task " ++ id.text ++ " has an empty subject")
  | refused cause => cause.message
  | poisoned => told .storage "in-memory store mutex poisoned"
  | reported kind text => told kind text

end StoreFault

/-- The number of tasks in each status. -/
structure TaskCounts where
  pending : Nat := 0
  running : Nat := 0
  completed : Nat := 0
  failed : Nat := 0
  deriving DecidableEq, Repr

/-- The number of tasks. -/
def TaskCounts.total (c : TaskCounts) : Nat := c.pending + c.running + c.completed + c.failed

/-- A cron job that has fired, as it is afterwards, and what the fire made. -/
structure FiredJob where
  job : Job
  fire : Fire
  deriving DecidableEq, Repr

/-- A call of the store: what it writes stays even if it has no answer. -/
abbrev StoreM := ExceptT (Halt StoreFault) (StateM Store)

namespace StoreM

/-- Refuses the call. -/
def refuse {α : Type} (fault : StoreFault) : StoreM α := throw (.refused fault)

/-- A rule as part of a call. -/
def ofRule {α : Type} : Except Refusal α → StoreM α
  | .ok a => pure a
  | .error cause => refuse (.refused cause)

/-- A rule that may crash as part of a call. -/
def ofOutcome {α : Type} : Outcome Refusal α → StoreM α
  | .ok a => pure a
  | .error h => throw (h.map .refused)

/-- Takes the lock for a call, and gives it back unless the call crashes. -/
def locked {α : Type} (call : StoreM α) : StoreM α := fun store =>
  if store.poisoned then (.error (.refused .poisoned), store)
  else match call store with
    | (.error .crashed, after) => (.error .crashed, { after with poisoned := true })
    | result => result

/-- Writes a task. -/
def putTask (t : Task) : StoreM Unit := modify fun s => { s with tasks := s.tasks.put t }

/-- Writes a cron job. -/
def putJob (j : Job) : StoreM Unit := modify fun s => { s with jobs := s.jobs.put j }

end StoreM
end DurableQueue
