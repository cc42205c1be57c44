import DurableQueue.Instant.Printer
import DurableQueue.Limits
import DurableQueue.Schedule.Reader
import DurableQueue.Task.Status
import DurableQueue.Uuid

/-! What the rules of the queue refuse, and how each refusal is worded. A refusal depends on the values that are judged
    alone, never on what is stored. -/

namespace DurableQueue

/-- Why a value or a change is refused. -/
inductive Refusal where
  /-- A subject has no characters. -/
  | emptySubject
  /-- A subject has a token that only patterns may have. -/
  | wildcardSubject (subject : String)
  /-- A delay is above the longest one. -/
  | delayTooLong (delay : Span)
  /-- A delay ends beyond the calendar. -/
  | delayOutOfRange (start : Instant) (delay : Span)
  /-- A task is to run later than the longest delay from now. -/
  | tooFarAhead (runAfter : Instant)
  /-- A word is no status of tasks. -/
  | unknownTaskStatus (word : String)
  /-- A word is no status of cron jobs. -/
  | unknownJobStatus (word : String)
  /-- The name of a cron job is blank. -/
  | blankJobName
  /-- The delay of a cron job is above the longest one. -/
  | jobDelayTooLong (name : String) (delay : Span)
  /-- A cron job is not due. -/
  | jobNotDue (name : String)
  /-- A store has reported that a value is not valid. -/
  | reported (text : String)
  /-- A pattern has no characters. -/
  | emptyPattern
  /-- A pattern has a `>` in front of another token. -/
  | misplacedTail (pattern : String)
  /-- A text is no cron expression. -/
  | badExpression (expression : String) (fault : Schedule.Fault)
  /-- An action does not start from this status. -/
  | illegalAction (action : Action) (status : TaskStatus)
  /-- A text is no identifier of a task. -/
  | badTaskId (fault : Uuid.ReadFault)
  /-- A text is no identifier of a cron job. -/
  | badJobId (fault : Uuid.ReadFault)
  deriving DecidableEq, Repr

namespace Refusal

/-- A number of seconds as messages show it. -/
def secondsText (d : Span) : String := toString d.seconds ++ "s"

/-- A refusal that concerns the content of a value. -/
def validation (detail : String) : String := "validation failed: " ++ detail

/-- A refusal that concerns a pattern. -/
def pattern (text detail : String) : String := "invalid subject pattern `" ++ text ++ "`: " ++ detail

/-- What a reader of the message is told. -/
def message : Refusal → String
  | emptySubject => validation "subject must not be empty"
  | wildcardSubject subject => validation ("subject `" ++ subject ++ "` contains a wildcard token")
  | delayTooLong delay =>
    validation ("delay of " ++ secondsText delay ++ " exceeds the " ++ secondsText longestDelay ++ " limit")
  | delayOutOfRange start delay => validation (start.text ++ " plus " ++ delay.text ++ " is out of range")
  | tooFarAhead runAfter =>
    validation ("run_after " ++ runAfter.text ++ " is more than " ++ secondsText longestDelay ++ " ahead")
  | unknownTaskStatus word => validation ("unknown task status `" ++ word ++ "`")
  | unknownJobStatus word => validation ("unknown cron job status `" ++ word ++ "`")
  | blankJobName => validation "cron job name must not be empty"
  | jobDelayTooLong name delay =>
    validation ("cron job `" ++ name ++ "` task_run_after of " ++ secondsText delay ++ " exceeds the " ++
      secondsText longestDelay ++ " limit")
  | jobNotDue name => validation ("cron job `" ++ name ++ "` is not due")
  | reported text => validation text
  | emptyPattern => pattern "" "pattern is empty"
  | misplacedTail text => pattern text "`>` is only allowed as the last token"
  | badExpression expression fault =>
    "invalid cron expression `" ++ expression ++ "`: " ++ fault.message expression
  | illegalAction action status => "illegal transition `" ++ action.word ++ "` from status " ++ status.word
  | badTaskId fault => "invalid identifier: TaskId: " ++ fault.message
  | badJobId fault => "invalid identifier: CronJobId: " ++ fault.message

end Refusal

end DurableQueue
