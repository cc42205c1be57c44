/-! How the handling of a task ends. -/

namespace DurableQueue

/-- Why a handler did not succeed. -/
inductive HandlerFault where
  /-- The attempt has failed. -/
  | failed (message : String)
  /-- The task is to be put back without counting a failure. -/
  | requeue (reason : String)
  deriving DecidableEq, Repr

namespace HandlerFault

/-- A failure that is told as a chain of causes, outermost first. -/
def ofChain (causes : List String) : HandlerFault := .failed (": ".intercalate causes)

/-- What a reader of the message is told. -/
def message : HandlerFault → String
  | failed message => message
  | requeue reason => "requeue requested: " ++ reason

end HandlerFault

/-- The end of a handler's run. -/
inductive Handling where
  | succeeded
  | faulted (fault : HandlerFault)
  /-- The handler crashed, with a text if it left one. -/
  | crashed (text : Option String)
  deriving DecidableEq, Repr

/-- A handler's end as its task sees it: a crash is a failure. -/
def Handling.result : Handling → Except HandlerFault Unit
  | succeeded => .ok ()
  | faulted fault => .error fault
  | crashed none => .error (.failed "handler panicked")
  | crashed (some text) => .error (.failed ("handler panicked: " ++ text))

end DurableQueue
