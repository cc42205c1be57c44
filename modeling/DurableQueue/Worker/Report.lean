import DurableQueue.Queue
import DurableQueue.Scheduler

/-! Why the worker has failed, in words: what came to nothing, and then the causes, each the cause of the one before. -/

namespace DurableQueue
namespace Worker

/-- A failure and its causes. -/
structure Report where
  summary : String
  causes : List String := []
  deriving DecidableEq, Repr

namespace Report

/-- A failure as the cause of another one. -/
def within (r : Report) (summary : String) : Report := ⟨summary, r.summary :: r.causes⟩

/-- A cause that may have several lines, all of them indented. -/
def indented (first later cause : String) : String := first ++ ("\n" ++ later).intercalate (cause.splitOn "\n")

/-- A numbered cause. The numbers end in one column. -/
def numbered (cause : String) (index : Nat) : String :=
  let number := toString index
  indented (Text.blanks (5 - number.length) ++ number ++ ": ") (Text.blanks 7) cause

/-- The lines about the causes. A single cause has no number. -/
def causeLines : List String → List String
  | [] => []
  | [cause] => ["", "Caused by:", indented (Text.blanks 4) (Text.blanks 4) cause]
  | causes => "" :: "Caused by:" :: causes.zipIdx.map fun (cause, index) => numbered cause index

/-- The failure as a text. -/
def text (r : Report) : String := "\n".intercalate (("Error: " ++ r.summary) :: causeLines r.causes) ++ "\n"

/-- A fault that is its own cause. -/
def ofStore (fault : StoreFault) : Report := ⟨fault.message, []⟩

def ofSettings (fault : SettingsFault) : Report := ⟨fault.message, []⟩

/-- The refusal of a task is told twice: in the message, and as its cause. -/
def ofQueue : QueueFault → Report
  | .invalidTask index cause => ⟨(QueueFault.invalidTask index cause).message, [cause.message]⟩
  | .store fault => ofStore fault

/-- The refusal of a definition is told twice: in the message, and as its cause. -/
def ofScheduler : SchedulerFault → Report
  | .invalidJob cause => ⟨(SchedulerFault.invalidJob cause).message, [cause.message]⟩
  | fault => ⟨fault.message, []⟩

/-- Why a text is not a list of definitions, with the place where it goes wrong. -/
def ofList (text : String) : JobSpec.ListFault → Report
  | .refused cause => ofScheduler (.invalidJob cause)
  | .unreadable fault =>
    ⟨"failed to parse cron job definitions: " ++ (JobSpec.troubleIn text).getD fault.message, []⟩

end Report
end Worker
end DurableQueue
