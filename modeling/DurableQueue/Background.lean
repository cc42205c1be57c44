import DurableQueue.Span

/-! Parts that run by themselves: passes one after the other with a rest between them. A part is started and stopped,
    again and again; each start is a run of its own with its own signal to stop. A run looks for the signal before each
    rest and again when it wakes from it, and some runs rest also before their first pass. Stopping waits for the run to
    end, and aborts one that does not end in time. -/

namespace DurableQueue

/-- Why a part was not started or stopped. -/
inductive LifecycleFault where
  | alreadyRunning (name : String)
  | notRunning (name : String)
  | stopTimeout (name : String) (timeout : Span)
  deriving DecidableEq, Repr

/-- What a reader of the message is told. -/
def LifecycleFault.message : LifecycleFault → String
  | alreadyRunning name => name ++ " is already running"
  | notRunning name => name ++ " is not running"
  | stopTimeout name timeout => name ++ " did not stop within " ++ timeout.text

/-- What a run is doing. -/
inductive RunPhase where
  /-- Nothing yet: it has been started, and has not taken its first step. -/
  | starting
  /-- It makes a pass. -/
  | passing
  /-- It waits for the time of the next pass. -/
  | resting
  | ended
  deriving DecidableEq, Repr

/-- How a pass ends. -/
inductive PassEnding where
  | done
  /-- The store or the queue has refused it, which is noted and nothing else. -/
  | faulted
  /-- It has crashed, and its run with it. -/
  | crashed
  deriving DecidableEq, Repr

/-- What happens between a start and the stop that goes with it. -/
structure Run where
  /-- It rests a random while before its first pass. -/
  careful : Bool
  phase : RunPhase := .starting
  /-- The signal to stop has been given. -/
  signalled : Bool := false
  deriving DecidableEq, Repr

namespace Run

/-- Gives the signal. -/
def signal (r : Run) : Run := { r with signalled := true }

/-- The run is to rest, and ends instead if the signal has been given. -/
def rest (r : Run) : Run := { r with phase := if r.signalled then .ended else .resting }

/-- The run takes its first step, or wakes from its rest: by the signal, which comes first, or because it is time. One
    waking is one poll, up to the next point where the run is suspended: it looks for the signal and begins its pass in
    one step. -/
def wake (r : Run) : Run :=
  match r.phase with
  | .starting => if r.careful then r.rest else { r with phase := .passing }
  | .resting => { r with phase := if r.signalled then .ended else .passing }
  | _ => r

/-- A pass is over. -/
def passed (r : Run) (ending : PassEnding) : Run :=
  match r.phase with
  | .passing => if ending = .crashed then { r with phase := .ended } else r.rest
  | _ => r

/-- The run ends where it is suspended. Each poll is one event, so an abort never meets a run within a poll. -/
def abort (r : Run) : Run := { r with phase := .ended }

end Run

/-- A part that runs by itself. -/
structure Background where
  name : String
  /-- Its runs rest a random while before their first pass. -/
  careful : Bool
  /-- It has been started, and not stopped since. -/
  running : Bool := false
  /-- All its runs, the latest last. -/
  runs : List Run := []
  /-- The run for whose end a stop waits. -/
  awaited : Option Nat := none
  deriving DecidableEq, Repr

namespace Background

/-- Starts a run. -/
def start (b : Background) : Except LifecycleFault Background :=
  if b.running then .error (.alreadyRunning b.name)
  else .ok { b with running := true, runs := b.runs ++ [{ careful := b.careful }] }

/-- Changes one run. -/
def change (b : Background) (k : Nat) (f : Run → Run) : Background := { b with runs := b.runs.modify k f }

/-- The place of the latest run. -/
def latest (b : Background) : Nat := b.runs.length - 1

/-- Gives the latest run the signal to stop, and goes on to wait for its end. -/
def stop (b : Background) : Except LifecycleFault Background :=
  if b.running then
    .ok { b.change b.latest Run.signal with running := false, awaited := some b.latest }
  else .error (.notRunning b.name)

/-- What a run is doing; one that never was has ended. -/
def phaseAt (b : Background) (k : Nat) : RunPhase := (b.runs[k]?.map (·.phase)).getD .ended

/-- What a stop tells that has waited so long: that its run has ended, that its time is up, or nothing yet. -/
def stopAnswer (b : Background) (timeout waited : Span) : Option (Except LifecycleFault Unit) :=
  match b.awaited with
  | none => none
  | some k =>
    if b.phaseAt k = .ended then some (.ok ())
    else if timeout ≤ waited then some (.error (.stopTimeout b.name timeout))
    else none

/-- A stop waits no longer, and aborts its run unless that has ended. A stop that its caller drops while it waits is left
    out: it would leave its run with the signal and not abort it. -/
def leave (b : Background) : Background :=
  match b.awaited with
  | none => b
  | some k => { b.change k Run.abort with awaited := none }

/-! ### Events -/

/-- What can happen to a part. -/
inductive Event where
  | start
  | stop
  | wake (run : Nat)
  | passed (run : Nat) (ending : PassEnding)
  | leave
  deriving DecidableEq, Repr

/-- The part after a call that may be refused. Who stops a part has it alone as long as the stop waits, so there is no
    call then. -/
def called (b : Background) (call : Background → Except LifecycleFault Background) : Background :=
  if b.awaited.isSome then b
  else match call b with
    | .ok c => c
    | .error _ => b

/-- The part after an event. What cannot happen changes nothing. -/
def after (b : Background) : Event → Background
  | .start => b.called start
  | .stop => b.called stop
  | .wake k => b.change k Run.wake
  | .passed k ending => b.change k (·.passed ending)
  | .leave => b.leave

/-- The run that begins a pass when something happens, if one does. -/
def begins (b : Background) : Event → Option Nat
  | .wake k => if b.phaseAt k ≠ .passing ∧ (b.after (.wake k)).phaseAt k = .passing then some k else none
  | _ => none

end Background
end DurableQueue
