import DurableQueue.Handling
import DurableQueue.Settings
import DurableQueue.Subject.Pattern
import DurableQueue.Task

/-! A pool of consumers. Each registered pattern has a poller, which takes a permit, claims a task under its pattern and
    hands the permit on with the task to a dispatch. The dispatch runs the handler, has the outcome written to the store
    and gives the permit back. Without a task a poller gives its permit back and rests.

    Permits limit the handlers that run at a time, over all patterns. A poller that finds no free permit stands in line,
    and a permit that comes back goes to the first in line. Stopping makes each poller end where it next waits, and then
    collects the permits, so that it ends when every dispatch has.

    The pool here has no clock and no store: what the store answers and when things happen come from outside, as
    events. -/

namespace DurableQueue

/-- Why a pool did not do what it was asked for. -/
inductive PoolFault where
  | refused (cause : Refusal)
  | alreadyStarted
  | notRunning
  | shutdownTimeout (timeout : Span)
  deriving DecidableEq, Repr

/-- What a reader of the message is told. -/
def PoolFault.message : PoolFault → String
  | refused cause => cause.message
  | alreadyStarted => "consumer pool already started"
  | notRunning => "consumer pool is not running"
  | shutdownTimeout timeout => "in-flight handlers did not finish within " ++ timeout.text

/-- What a poller is doing. -/
inductive PollerPhase where
  /-- It looks for the signal to stop, and then for a permit. -/
  | ready
  /-- It stands in line for a permit. -/
  | queued
  /-- It has been given a permit while it stood in line. -/
  | granted
  /-- It has a permit and asks the store for a task. -/
  | claiming
  /-- There was nothing to claim, and it waits a while. -/
  | resting
  | ended
  deriving DecidableEq, Repr

/-- The consumer of one pattern. -/
structure Poller where
  pattern : Pattern
  phase : PollerPhase
  deriving DecidableEq, Repr

/-- The call that writes the outcome of a handler to the store. -/
inductive Resolution where
  | ack
  | requeue
  | nack (message : String)
  deriving DecidableEq, Repr

/-- The call for a handler's end: a failure and a crash count as failed attempts. -/
def Resolution.of (ending : Handling) : Resolution :=
  match ending.result with
  | .ok () => .ack
  | .error (.requeue _) => .requeue
  | .error (.failed message) => .nack message

/-- What a dispatch is doing. -/
inductive DispatchPhase where
  /-- The handler has not begun. -/
  | spawned
  | handling
  /-- The handler has ended, and the call to the store is under way. -/
  | resolving (resolution : Resolution)
  | done
  deriving DecidableEq, Repr

/-- A claimed task on its way through a handler. -/
structure Dispatch where
  /-- The place of the poller that claimed the task. -/
  poller : Nat
  task : Task
  phase : DispatchPhase
  deriving DecidableEq, Repr

/-- What a pool has counted. -/
structure Tally where
  /-- Handlers that have ended. -/
  processed : Nat := 0
  succeeded : Nat := 0
  failed : Nat := 0
  requeued : Nat := 0
  /-- Successes that the store did not take. -/
  ackFailures : Nat := 0
  /-- Failures and requests to requeue that the store did not take. -/
  nackFailures : Nat := 0
  /-- Handlers that have begun and whose tasks are not resolved. -/
  inFlight : Nat := 0
  deriving DecidableEq, Repr

/-- The tally after a handler has ended. A failure counts before the store knows of it. -/
def Tally.handled (t : Tally) : Resolution → Tally
  | .nack _ => { t with processed := t.processed + 1, failed := t.failed + 1 }
  | _ => { t with processed := t.processed + 1 }

/-- The tally after the store has taken an outcome, or has not. -/
def Tally.resolved (t : Tally) (resolution : Resolution) (taken : Bool) : Tally :=
  match resolution, taken with
  | .ack, true => { t with succeeded := t.succeeded + 1 }
  | .ack, false => { t with ackFailures := t.ackFailures + 1 }
  | .requeue, true => { t with requeued := t.requeued + 1 }
  | .nack _, true => t
  | _, false => { t with nackFailures := t.nackFailures + 1 }

/-- Where a pool is in its life, which it has only once. -/
inductive Lifecycle where
  | idle
  | running
  /-- The signal to stop has been given, and its end is waited for. -/
  | stopping
  | stopped
  deriving DecidableEq, Repr

/-- A pool of consumers. -/
structure Pool where
  /-- The number of permits. -/
  limit : Nat
  pollers : List Poller := []
  /-- The permits that nobody holds. -/
  free : Nat
  /-- The places of the pollers in line for a permit. -/
  line : List Nat := []
  dispatches : List Dispatch := []
  tally : Tally := {}
  lifecycle : Lifecycle := .idle
  /-- The signal to stop has been given. -/
  signalled : Bool := false
  /-- The permits that stopping has collected, while it does so. -/
  drain : Option Nat := none
  deriving DecidableEq, Repr

namespace Pool

/-- The greatest number of permits that there can be. -/
def greatestLimit : Nat := 2305843009213693951

/-- The greatest number of permits that stopping collects. -/
def greatestDrain : Nat := 4294967295

/-- A pool with so many permits, but at least one. More than there can be is a crash. -/
def create {ε : Type} (maxConcurrency : Nat) : Outcome ε Pool :=
  let limit := max maxConcurrency 1
  if greatestLimit < limit then .crash else .ok { limit, free := limit }

/-- Registers a pattern, before the pool has started. -/
def register (p : Pool) (pattern : String) : Except PoolFault Pool :=
  if p.lifecycle ≠ .idle then .error .alreadyStarted
  else match Pattern.read pattern with
    | .ok pattern => .ok { p with pollers := p.pollers ++ [⟨pattern, .ready⟩] }
    | .error cause => .error (.refused cause)

/-- Starts the pollers. -/
def start (p : Pool) : Except PoolFault Pool :=
  if p.lifecycle ≠ .idle then .error .alreadyStarted else .ok { p with lifecycle := .running }

/-- Gives the signal to stop. -/
def stop (p : Pool) : Except PoolFault Pool :=
  if p.lifecycle ≠ .running then .error .notRunning else .ok { p with lifecycle := .stopping, signalled := true }

/-! ### Permits -/

/-- What a poller is doing, if there is one at the place. -/
def phaseAt (p : Pool) (i : Nat) : Option PollerPhase := p.pollers[i]?.map (·.phase)

/-- Lets a poller do something else. -/
def enter (p : Pool) (i : Nat) (phase : PollerPhase) : Pool :=
  { p with pollers := p.pollers.modify i fun poller => { poller with phase } }

/-- The permits that stopping has to collect. -/
def drainGoal (p : Pool) : Nat := min p.limit greatestDrain

/-- Gives a permit back: to the first in line, to the stop that collects permits, or to nobody. -/
def release (p : Pool) : Pool :=
  match p.line, p.drain with
  | i :: rest, _ => { p with line := rest }.enter i .granted
  | [], some n => if n < p.drainGoal then { p with drain := some (n + 1) } else { p with free := p.free + 1 }
  | [], none => { p with free := p.free + 1 }

/-! ### Pollers -/

/-- A poller looks for the signal, and then for a permit. -/
def seek (p : Pool) (i : Nat) : Pool :=
  if p.signalled then p.enter i .ended
  else if 0 < p.free then { p with free := p.free - 1 }.enter i .claiming
  else { p with line := p.line ++ [i] }.enter i .queued

/-- A poller wakes up, which it does only in a pool that has been started. In line it leaves only for the signal; with a
    permit it has been given it asks the store, unless there is the signal. One waking is one poll, up to the next point
    where the poller is suspended: it looks for the signal and begins to ask the store in one step. -/
def wake (p : Pool) (i : Nat) : Pool :=
  if p.lifecycle = .idle then p
  else match p.phaseAt i with
  | some .ready | some .resting => p.seek i
  | some .queued => if p.signalled then { p with line := p.line.erase i }.enter i .ended else p
  | some .granted => if p.signalled then (p.enter i .ended).release else p.enter i .claiming
  | _ => p

/-- A task goes to a dispatch of its own. -/
def spawn (p : Pool) (i : Nat) (task : Task) : Pool := { p with dispatches := p.dispatches ++ [⟨i, task, .spawned⟩] }

/-- The store has answered a poller: a task goes to a dispatch with the permit, and without one the permit goes back. -/
def claimed (p : Pool) (i : Nat) (answer : Option Task) : Pool :=
  match p.phaseAt i, answer with
  | some .claiming, some task => (p.spawn i task).enter i .ready
  | some .claiming, none => (p.enter i (if p.signalled then .ended else .resting)).release
  | _, _ => p

/-- A poller has crashed while it asked the store. -/
def pollerCrashed (p : Pool) (i : Nat) : Pool :=
  match p.phaseAt i with
  | some .claiming => (p.enter i .ended).release
  | _ => p

/-! ### Dispatches -/

/-- What a dispatch is doing, if there is one at the place. -/
def stageAt (p : Pool) (j : Nat) : Option DispatchPhase := p.dispatches[j]?.map (·.phase)

/-- Lets a dispatch do something else. -/
def advance (p : Pool) (j : Nat) (phase : DispatchPhase) : Pool :=
  { p with dispatches := p.dispatches.modify j fun d => { d with phase } }

/-- A handler begins. -/
def begun (p : Pool) (j : Nat) : Pool :=
  match p.stageAt j with
  | some .spawned => { p with tally.inFlight := p.tally.inFlight + 1 }.advance j .handling
  | _ => p

/-- A handler has ended, and its outcome is to be written. -/
def handled (p : Pool) (j : Nat) (ending : Handling) : Pool :=
  match p.stageAt j with
  | some .handling =>
    let resolution := Resolution.of ending
    { p with tally := p.tally.handled resolution }.advance j (.resolving resolution)
  | _ => p

/-- The store has answered a dispatch, which ends and gives its permit back. -/
def resolved (p : Pool) (j : Nat) (taken : Bool) : Pool :=
  match p.stageAt j with
  | some (.resolving resolution) =>
    let tally := Tally.resolved p.tally resolution taken
    ({ p with tally := { tally with inFlight := tally.inFlight - 1 } }.advance j .done).release
  | _ => p

/-- A dispatch has crashed while it asked the store. It gives its permit back and goes on being counted. -/
def dispatchCrashed (p : Pool) (j : Nat) : Pool :=
  match p.stageAt j with
  | some (.resolving _) => (p.advance j .done).release
  | _ => p

/-! ### Stopping -/

/-- Whether all pollers have ended. -/
def allEnded (p : Pool) : Bool := p.pollers.all (·.phase = .ended)

/-- Stopping begins to collect permits, once all pollers have ended. -/
def collect (p : Pool) : Pool :=
  if p.lifecycle = .stopping ∧ p.allEnded ∧ p.drain = none then
    let n := min p.free p.drainGoal
    { p with free := p.free - n, drain := some n }
  else p

/-- Whether stopping has collected all permits that it needs. -/
def drained (p : Pool) : Bool := p.drain.any (p.drainGoal ≤ ·)

/-- What stopping tells that began so long ago: that all has ended, that its time is up, or nothing yet. -/
def stopAnswer (p : Pool) (timeout waited : Span) : Option (Except PoolFault Unit) :=
  if p.drained then some (.ok ())
  else if timeout ≤ waited then some (.error (.shutdownTimeout timeout))
  else none

/-- Nobody waits any longer for the end, and the permits that have been collected are free. -/
def leave (p : Pool) : Pool :=
  if p.lifecycle = .stopping then { p with free := p.free + p.drain.getD 0, drain := none, lifecycle := .stopped } else p

/-! ### Events -/

/-- What can happen to a pool. -/
inductive Event where
  | register (pattern : String)
  | start
  | stop
  | wake (poller : Nat)
  | claimed (poller : Nat) (answer : Option Task)
  | pollerCrashed (poller : Nat)
  | begun (dispatch : Nat)
  | handled (dispatch : Nat) (ending : Handling)
  | resolved (dispatch : Nat) (taken : Bool)
  | dispatchCrashed (dispatch : Nat)
  | collect
  | leave
  deriving DecidableEq, Repr

/-- The pool after a call that may be refused. -/
def orSame (p : Pool) : Except PoolFault Pool → Pool
  | .ok q => q
  | .error _ => p

/-- The pool after an event. What cannot happen changes nothing. -/
def after (p : Pool) : Event → Pool
  | .register pattern => p.orSame (p.register pattern)
  | .start => p.orSame p.start
  | .stop => p.orSame p.stop
  | .wake i => p.wake i
  | .claimed i answer => p.claimed i answer
  | .pollerCrashed i => p.pollerCrashed i
  | .begun j => p.begun j
  | .handled j ending => p.handled j ending
  | .resolved j taken => p.resolved j taken
  | .dispatchCrashed j => p.dispatchCrashed j
  | .collect => p.collect
  | .leave => p.leave

/-! ### Requests -/

/-- What a pool asks of those around it. -/
inductive Request where
  /-- A poller asks the store for a task under its pattern. -/
  | claim (poller : Nat) (pattern : Pattern)
  /-- A dispatch calls the handler that goes with a poller, with the task as it was claimed. -/
  | handle (dispatch poller : Nat) (task : Task)
  /-- A dispatch has the outcome for a task written to the store. -/
  | write (dispatch : Nat) (id : TaskId) (resolution : Resolution)
  deriving DecidableEq, Repr

/-- What a pool asks for when something happens to it. -/
def requests (p : Pool) : Event → List Request
  | .wake i =>
    match p.pollers[i]? with
    | some poller =>
      if poller.phase ≠ .claiming ∧ (p.wake i).phaseAt i = some .claiming then [.claim i poller.pattern] else []
    | none => []
  | .begun j =>
    match p.dispatches[j]? with
    | some ⟨i, task, .spawned⟩ => [.handle j i task]
    | _ => []
  | .handled j ending =>
    match p.dispatches[j]? with
    | some ⟨_, task, .handling⟩ => [.write j task.id (.of ending)]
    | _ => []
  | _ => []

end Pool
end DurableQueue
