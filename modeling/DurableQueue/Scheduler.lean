import DurableQueue.Background
import DurableQueue.Job.Encoding
import DurableQueue.Settings
import DurableQueue.Store.Jobs

/-! The scheduler of cron jobs: registers definitions and fires the jobs that are due. -/

namespace DurableQueue

/-- Why the scheduler did not do what it was asked for. -/
inductive SchedulerFault where
  /-- A definition is refused; nothing has been written. -/
  | invalidJob (cause : Refusal)
  | store (fault : StoreFault)
  | lifecycle (fault : LifecycleFault)
  deriving DecidableEq, Repr

/-- What a reader of the message is told. -/
def SchedulerFault.message : SchedulerFault → String
  | invalidJob cause => "invalid cron job definition: " ++ cause.message
  | store fault => fault.message
  | lifecycle fault => fault.message

namespace Scheduler

/-- A scheduler that has not been started. It looks for the signal to stop before its first pass. -/
def background : Background := { name := "scheduler", careful := true }

/-- Registers definitions, all of which have to be valid. `upsert` does so in the store. -/
def register {m : Type → Type} [Monad m] (upsert : List JobSpec → m (Except (Halt StoreFault) (List Job)))
    (specs : List JobSpec) : m (Outcome SchedulerFault (List Job)) := do
  match specs.forM JobSpec.validate with
  | .error cause => return .refuse (.invalidJob cause)
  | .ok () => return (← upsert specs).mapError (·.map .store)

end Scheduler

namespace Reaper

/-- A reaper that has not been started. It makes its first pass without looking for the signal to stop. -/
def background : Background := { name := "reaper", careful := false }

end Reaper
end DurableQueue
