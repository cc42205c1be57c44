import DurableQueue.Json.Printer
import DurableQueue.Store.Tasks

/-! The queue in front of a store: what producers hand in is validated as a whole before anything is written, and tasks
    that have been running for too long are put back. The store below is asked only where there is something to ask. -/

namespace DurableQueue

/-- Why the queue did not do what it was asked for. -/
inductive QueueFault where
  /-- A task of a batch is refused; the batch comes to nothing. -/
  | invalidTask (index : Nat) (cause : Refusal)
  | store (fault : StoreFault)
  deriving DecidableEq, Repr

/-- What a reader of the message is told. -/
def QueueFault.message : QueueFault → String
  | invalidTask index cause => "invalid task at index " ++ toString index ++ ": " ++ cause.message
  | store fault => fault.message

namespace Queue

/-- Refuses a batch for its first task that is not valid, counted from a given index. -/
def validateFrom (now : Instant) : Nat → List NewTask → Except QueueFault Unit
  | _, [] => .ok ()
  | index, new :: rest =>
    match new.validate now with
    | .error cause => .error (.invalidTask index cause)
    | .ok () => validateFrom now (index + 1) rest

/-- Refuses a batch for its first task that is not valid. -/
def validate (now : Instant) (news : List NewTask) : Except QueueFault Unit := validateFrom now 0 news

/-- The tasks of a batch, with identifiers from a supply. -/
def tasksOf (ids : Nat → TaskId) (now : Instant) (news : List NewTask) : List Task :=
  news.zipIdx.map fun (new, i) => .create (ids i) new now

/-- Publishes a batch, all or nothing, and gives the identifiers in the same order. `insert` writes tasks to the store. -/
def publish {m : Type → Type} [Monad m] (insert : List Task → m (Except (Halt StoreFault) Unit)) (ids : Nat → TaskId)
    (now : Instant) (news : List NewTask) : m (Outcome QueueFault (List TaskId)) := do
  match validate now news with
  | .error fault => return .refuse fault
  | .ok () =>
    if news.isEmpty then return .ok []
    else
      let tasks := tasksOf ids now news
      return ((← insert tasks).map fun () => tasks.map (·.id)).mapError (·.map .store)

/-- The time before which a running task must have been claimed to be stuck. There is none if no time is moved by so long
    a timeout, or if it lies beyond the calendar or before 1970, where no task has been claimed. -/
def cutoff? (now : Instant) (timeout : Span) : Option Instant :=
  if Span.longestShift < timeout then none else (now.sub? timeout).filter (.epoch ≤ ·)

/-- Puts back the tasks that have been running for longer than a timeout. `reset` does so in the store. -/
def cleanup {m : Type → Type} [Monad m] (reset : Instant → Instant → m (Except (Halt StoreFault) Nat))
    (now : Instant) (timeout : Span) : m (Outcome QueueFault Nat) := do
  match cutoff? now timeout with
  | none => return .ok 0
  | some cutoff => return (← reset cutoff now).mapError (·.map .store)

/-- A task with a JSON value as its payload, on one line and with the members of objects sorted by key. -/
def jsonTask (subject : String) (value : Json) : NewTask :=
  .of subject value.sorted.print.toUTF8.toList

end Queue
end DurableQueue
