import DurableQueue.Pool
import DurableQueue.Queue
import DurableQueue.Scheduler

/-! A simulation of everything that works on one store: callers, pools of consumers, schedulers and reapers. Time passes
    only where all wait for it, so that a run is determined by what is asked of it.

    What can happen at an instant stands in a queue and is worked off in order; what waits for a later instant stands
    among the timers, by time and for the same time in the order in which it came. Calls of the store can be disturbed:
    they begin late, or fail, or both. -/

namespace DurableQueue

/-- The calls of the store by name. -/
inductive StoreCall where
  | insertTasks
  | getTask
  | claimNext
  | complete
  | failAttempt
  | requeue
  | resetStuck
  | stats
  | upsertJobs
  | getJob
  | listJobs
  | fireDue
  deriving DecidableEq, Repr

/-- What is to happen to calls of the store: first they wait, and then they fail if there is a fault. -/
structure Disturbance where
  call : StoreCall
  /-- The number of calls that it will yet meet. -/
  times : Nat
  delay : Span
  fault : Option StoreFault
  deriving DecidableEq, Repr

/-- How a handler plays one call: it may sleep first, and then ends. -/
structure Act where
  sleep : Span
  ending : Handling
  deriving DecidableEq, Repr

/-- How a handler plays its calls, one act after the other and the last one for ever. -/
structure Script where
  acts : List Act
  /-- The calls that have been played. -/
  played : Nat := 0
  deriving DecidableEq, Repr

/-- The act for the next call; without any acts it succeeds at once. -/
def Script.next (s : Script) : Act := (s.acts[s.played]? <|> s.acts.getLast?).getD ⟨.zero, .succeeded⟩

/-- A call of a handler. -/
structure HandlerCall where
  time : Instant
  pattern : Pattern
  /-- The task as it was claimed. -/
  task : Task
  deriving Repr

/-- A pool with its settings and the scripts of its handlers, in the order of their patterns. -/
structure PoolSite where
  settings : PoolSettings
  pool : Pool
  scripts : List Script := []

/-- What a part that runs by itself does in a pass. -/
inductive Duty where
  | fire (settings : SchedulerSettings)
  | reap (settings : ReaperSettings)
  deriving DecidableEq, Repr

/-- A part that runs by itself. -/
structure Keeper where
  duty : Duty
  background : Background
  deriving DecidableEq, Repr

/-- Something that happens at an instant. Pools, keepers, pollers, dispatches and runs are named by their places. -/
inductive Work where
  /-- A poller wakes up. -/
  | poller (pool poller : Nat)
  /-- The store answers a poller. -/
  | claim (pool poller : Nat) (pattern : Pattern) (now : Instant) (fault : Option StoreFault)
  /-- A dispatch begins. -/
  | dispatch (pool dispatch : Nat)
  /-- The handler that goes with a poller begins. -/
  | handler (pool dispatch poller : Nat) (task : Task)
  /-- A handler ends. -/
  | ending (pool dispatch : Nat) (ending : Handling)
  /-- A dispatch learns that its handler has ended. -/
  | handled (pool dispatch : Nat) (ending : Handling)
  /-- The store answers a dispatch. -/
  | resolve (pool dispatch : Nat) (id : TaskId) (resolution : Resolution) (now : Instant) (fault : Option StoreFault)
  /-- A run wakes up. -/
  | run (keeper run : Nat)
  /-- The store answers a run. -/
  | pass (keeper run : Nat) (now : Instant) (fault : Option StoreFault)
  deriving DecidableEq, Repr

/-- Everything that works on one store. -/
structure Simulation where
  store : Store := {}
  /-- The time that has passed. -/
  elapsed : Span := .zero
  /-- What the clock was set to last. -/
  clock : Instant
  /-- The time that had passed when it was set. -/
  clockSet : Span := .zero
  /-- The identifiers of tasks that have been made. -/
  madeTasks : Nat := 0
  /-- The identifiers of cron jobs that have been made. -/
  madeJobs : Nat := 0
  /-- The tasks that have reached the store, accepted or not, in the order in which they first did. -/
  arrived : List TaskId := []
  disturbances : List Disturbance := []
  /-- What happens next at this instant. -/
  ready : List Work := []
  /-- What happens later, by the time that will have passed. -/
  timers : List (Span × Work) := []
  pools : List PoolSite := []
  keepers : List Keeper := []
  /-- The calls of handlers. -/
  calls : List HandlerCall := []

namespace Simulation

/-- The time that the clock shows. -/
def now (s : Simulation) : Instant := s.clock.add ⟨s.elapsed.nanos - s.clockSet.nanos⟩

/-- Puts something at the end of what happens at this instant. -/
def enqueue (s : Simulation) (w : Work) : Simulation := { s with ready := s.ready ++ [w] }

/-- Lets something happen before anything else. -/
def atOnce (s : Simulation) (w : Work) : Simulation := { s with ready := w :: s.ready }

/-- Puts a timer behind those that are due no later. -/
def insertTimer (due : Span) (w : Work) : List (Span × Work) → List (Span × Work)
  | [] => [(due, w)]
  | (d, v) :: rest => if due < d then (due, w) :: (d, v) :: rest else (d, v) :: insertTimer due w rest

/-- Lets something happen after a while. -/
def after (s : Simulation) (delay : Span) (w : Work) : Simulation :=
  { s with timers := insertTimer (s.elapsed + delay) w s.timers }

/-- Lets time pass up to a given one, at which all timers that are due then go off. -/
def passTo (s : Simulation) (time : Span) : Simulation :=
  let due := s.timers.takeWhile fun (d, _) => d ≤ time
  { s with
    elapsed := time
    ready := s.ready ++ due.map (·.2)
    timers := s.timers.drop due.length }

/-! ### The store -/

/-- Takes the disturbance that a call meets: of those for it that are not used up, the first. -/
def meet (call : StoreCall) : List Disturbance → List Disturbance × Option Disturbance
  | [] => ([], none)
  | d :: rest =>
    if d.call = call ∧ d.times ≠ 0 then ({ d with times := d.times - 1 } :: rest, some d)
    else
      let (rest, met) := meet call rest
      (d :: rest, met)

/-- Begins a call of the store by something that does not wait for the answer here: `answer` is what happens when the
    store has answered. -/
def begin (s : Simulation) (call : StoreCall) (answer : Option StoreFault → Work) : Simulation :=
  let (rest, met) := meet call s.disturbances
  let s := { s with disturbances := rest }
  match met with
  | none => s.atOnce (answer none)
  | some d => if d.delay = .zero then s.atOnce (answer d.fault) else s.after d.delay (answer d.fault)

/-- Makes a call of the store, unless it fails by a disturbance. -/
def perform {α : Type} (s : Simulation) (fault : Option StoreFault) (call : StoreM α) :
    Except (Halt StoreFault) α × Simulation :=
  match fault with
  | some f => (.error (.refused f), s)
  | none =>
    let (answer, store) := call.run.run s.store
    (answer, { s with store })

/-- Notes that tasks have reached the store. -/
def arrive (s : Simulation) (ids : List TaskId) : Simulation :=
  { s with arrived := ids.foldl (fun known id => if id ∈ known then known else known ++ [id]) s.arrived }

/-- Makes identifiers of tasks. -/
def makeTasks (s : Simulation) (n : Nat) : (Nat → TaskId) × Simulation :=
  (fun i => .made (s.madeTasks + i), { s with madeTasks := s.madeTasks + n })

/-- Fires the cron jobs that are due; the tasks reach the store in the order of the names of their jobs. -/
def fireDue (s : Simulation) (fault : Option StoreFault) (now : Instant) (limit maxAttempts : Nat) :
    Except (Halt StoreFault) (List FiredJob) × Simulation :=
  let (ids, s) := s.makeTasks s.store.jobs.rows.length
  let (answer, s) := s.perform fault (Store.fireDue ids now limit maxAttempts)
  match answer with
  | .error h => (.error h, s)
  | .ok fired =>
    let byName := fired.mergeSort fun a b => a.job.name ≤ b.job.name
    (.ok byName, s.arrive (byName.map (·.fire.task.id)))

end Simulation
end DurableQueue
