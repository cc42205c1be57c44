import DurableQueue.Simulation.Work

/-! What can be asked of a simulation. A caller acts at an instant, before anything else that happens then, and waits for
    three things: for a disturbed call of the store, for time to pass, and for a stop. After each act everything happens
    that can happen at that instant. -/

namespace DurableQueue
namespace Simulation

/-- An act of the caller. -/
abbrev Caller (α : Type) := StateM Simulation α

/-- The act, and then everything that can happen at that instant. -/
def settled {α : Type} (act : Caller α) : Caller α := do
  let a ← act
  modify (settle enough)
  return a

/-- Waits until a condition holds, at most so long. -/
def wait (condition : Simulation → Bool) (timeout : Span) : Caller Unit :=
  modify fun s => s.runUntil condition (s.elapsed + timeout) enough

/-! ### The clock and disturbances -/

/-- Sets the clock. -/
def setClock (t : Instant) : Caller Unit := modify fun s => { s with clock := t, clockSet := s.elapsed }

/-- Lets time pass, and gives the time then. -/
def advance (d : Span) : Caller Instant := do
  wait (fun _ => false) d
  return (← get).now

/-- Disturbs calls of the store. -/
def disturb (d : Disturbance) : Caller Unit := modify fun s => { s with disturbances := s.disturbances ++ [d] }

/-! ### The store and the queue -/

/-- Waits for the disturbance that a call meets, and gives its fault. -/
def meetDisturbance (call : StoreCall) : Caller (Option StoreFault) := do
  let (rest, met) := meet call (← get).disturbances
  modify fun s => { s with disturbances := rest }
  match met with
  | none => return none
  | some d => do
    wait (fun _ => false) d.delay
    return d.fault

/-- Makes a call of the store. -/
def ask {α : Type} (call : StoreCall) (body : StoreM α) : Caller (Except (Halt StoreFault) α) := do
  let fault ← meetDisturbance call
  modifyGet fun s => s.perform fault body

/-- Writes a batch of new tasks. -/
def insertTasks (tasks : List Task) : Caller (Except (Halt StoreFault) Unit) := do
  let fault ← meetDisturbance .insertTasks
  if fault.isNone then modify fun s => s.arrive (tasks.map (·.id))
  modifyGet fun s => s.perform fault (Store.insertTasks tasks)

/-- Registers definitions of cron jobs. -/
def upsertJobs (specs : List JobSpec) (now : Instant) : Caller (Except (Halt StoreFault) (List Job)) := do
  let made := (← get).madeJobs
  modify fun s => { s with madeJobs := made + specs.length }
  ask .upsertJobs (Store.upsertJobs (fun i => .made (made + i)) specs now)

/-- Fires the cron jobs that are due, and gives them by name. -/
def fireJobs (now : Instant) (limit maxAttempts : Nat) : Caller (Except (Halt StoreFault) (List FiredJob)) := do
  let fault ← meetDisturbance .fireDue
  modifyGet fun s => s.fireDue fault now limit maxAttempts

/-- Publishes a batch of tasks. -/
def publish (news : List NewTask) : Caller (Outcome QueueFault (List TaskId)) := do
  let ids ← modifyGet fun s => s.makeTasks news.length
  Queue.publish insertTasks ids (← get).now news

/-- Puts back the tasks that have been running for longer than a timeout. -/
def cleanup (timeout : Span) : Caller (Outcome QueueFault Nat) := do
  Queue.cleanup (fun cutoff now => ask .resetStuck (Store.resetStuck cutoff now)) (← get).now timeout

/-- Registers definitions of cron jobs with the scheduler. -/
def registerJobs (specs : List JobSpec) : Caller (Outcome SchedulerFault (List Job)) := do
  Scheduler.register (fun specs => do upsertJobs specs (← get).now) specs

/-! ### Pools -/

/-- Adds a pool, and gives its place. -/
def addPool {ε : Type} (settings : PoolSettings) : Caller (Outcome ε Nat) := do
  let s ← get
  match (Pool.create settings.maxConcurrency : Outcome ε Pool) with
  | .error h => return .error h
  | .ok pool => do
    modify fun s => { s with pools := s.pools ++ [{ settings, pool }] }
    return .ok s.pools.length

/-- Lets something happen to a pool unless the pool refuses it. -/
def tryPool (n : Nat) (call : Pool → Except PoolFault Pool) (event : Pool.Event) : Caller (Except PoolFault Unit) := do
  match ((← get).poolAt n).map call with
  | none => return .error .notRunning
  | some (.error fault) => return .error fault
  | some (.ok _) => do
    modify fun s => s.inPool n event
    return .ok ()

/-- Registers a handler that plays a script. -/
def registerHandler (n : Nat) (pattern : String) (acts : List Act) : Caller (Except PoolFault Unit) := do
  let answer ← tryPool n (·.register pattern) (.register pattern)
  if answer.isOk then
    modify fun s =>
      { s with pools := s.pools.modify n fun site => { site with scripts := site.scripts ++ [{ acts }] } }
  return answer

/-- Wakes all pollers of a pool that wait for something. -/
def wakePollers (s : Simulation) (n : Nat) : Simulation :=
  match s.poolAt n with
  | none => s
  | some pool =>
    let waiting := pool.pollers.zipIdx.filter fun (poller, _) =>
      poller.phase = .ready ∨ poller.phase = .queued ∨ poller.phase = .resting
    waiting.foldl (fun s (_, i) => s.enqueue (.poller n i)) s

/-- Starts a pool: its pollers wake up at this instant. -/
def startPool (n : Nat) : Caller (Except PoolFault Unit) := do
  let answer ← tryPool n Pool.start .start
  if answer.isOk then modify fun s => s.wakePollers n
  return answer

/-- What stopping a pool tells by now that began at a given time. -/
def stopAnswer (n : Nat) (timeout began : Span) (s : Simulation) : Option (Except PoolFault Unit) :=
  (s.poolAt n).bind (·.stopAnswer timeout ⟨s.elapsed.nanos - began.nanos⟩)

/-- Stops a pool, and waits for its end no longer than its settings say. -/
def stopPool (n : Nat) : Caller (Except PoolFault Unit) := do
  match ← tryPool n Pool.stop .stop with
  | .error fault => return .error fault
  | .ok () => do
    modify fun s => s.wakePollers n
    let timeout := ((← get).pools[n]?.map (·.settings.shutdownTimeout)).getD .zero
    let answer := stopAnswer n timeout (← get).elapsed
    if (answer (← get)).isNone then wait (fun s => (answer s).isSome) timeout
    let told := answer (← get)
    modify fun s => s.inPool n .leave
    return told.getD (.error (.shutdownTimeout timeout))

/-- Drops a pool: its pollers end, and nobody waits for them. -/
def dropPool (n : Nat) : Caller Unit := modify fun s => ((s.inPool n .stop).inPool n .leave).wakePollers n

/-- Takes the calls of handlers that have not been taken yet, by time and then in the order in which their tasks reached
    the store. -/
def takeCalls : Caller (List HandlerCall) := do
  let s ← get
  set { s with calls := [] }
  let place (c : HandlerCall) : Nat := s.arrived.idxOf c.task.id
  return s.calls.mergeSort fun a b => a.time < b.time || (a.time = b.time && place a ≤ place b)

/-! ### Schedulers and reapers -/

/-- Adds a part that runs by itself, and gives its place. -/
def addKeeper (duty : Duty) : Caller Nat := do
  let s ← get
  let background := match duty with
    | .fire _ => Scheduler.background
    | .reap _ => Reaper.background
  modify fun s => { s with keepers := s.keepers ++ [{ duty, background }] }
  return s.keepers.length

/-- Starts a part that runs by itself. -/
def startKeeper (n : Nat) : Caller (Except LifecycleFault Unit) := do
  match (← get).keepers[n]? with
  | none => return .ok ()
  | some keeper =>
    match keeper.background.start with
    | .error fault => return .error fault
    | .ok _ => do
      modify fun s => (s.inKeeper n .start).enqueue (.run n keeper.background.runs.length)
      return .ok ()

/-- How long stopping waits. -/
def Duty.stopTimeout : Duty → Span
  | .fire settings => settings.stopTimeout
  | .reap settings => settings.stopTimeout

/-- Stops a part that runs by itself, and waits for the end of its run; a run that does not end in time is aborted. -/
def stopKeeper (n : Nat) : Caller (Except LifecycleFault Unit) := do
  match (← get).keepers[n]? with
  | none => return .ok ()
  | some keeper =>
    match keeper.background.stop with
    | .error fault => return .error fault
    | .ok _ => do
      modify fun s => (s.inKeeper n .stop).enqueue (.run n keeper.background.latest)
      let timeout := Duty.stopTimeout keeper.duty
      let began := (← get).elapsed
      let answer (s : Simulation) : Option (Except LifecycleFault Unit) :=
        s.keepers[n]?.bind (·.background.stopAnswer timeout ⟨s.elapsed.nanos - began.nanos⟩)
      if (answer (← get)).isNone then wait (fun s => (answer s).isSome) timeout
      let told := answer (← get)
      modify fun s => s.inKeeper n .leave
      return told.getD (.error (.stopTimeout keeper.background.name timeout))

/-- Drops a part that runs by itself: its run ends where it next looks for the signal. -/
def dropKeeper (n : Nat) : Caller Unit := do
  match (← get).keepers[n]? with
  | none => return ()
  | some keeper => modify fun s => (s.inKeeper n .stop).enqueue (.run n keeper.background.latest)

/-- Fires the cron jobs that are due, once, and counts them. -/
def tick (settings : SchedulerSettings) (now : Instant) : Caller (Except (Halt StoreFault) Nat) := do
  return (← fireJobs now settings.batchSize settings.maxAttempts).map (·.length)

end Simulation
end DurableQueue
