import DurableQueue.Simulation

/-! What happens at an instant: pollers claim tasks, handlers play their scripts, outcomes are written, and schedulers and
    reapers make their passes. -/

namespace DurableQueue
namespace Simulation

/-! ### Pools -/

/-- The pool at a place. -/
def poolAt (s : Simulation) (n : Nat) : Option Pool := s.pools[n]?.map (·.pool)

/-- What a poller is doing. -/
def pollerPhase (s : Simulation) (n i : Nat) : Option PollerPhase := (s.poolAt n).bind (·.phaseAt i)

/-- The pollers that have been given a permit and have not woken up since. -/
def grantedIn (p : Pool) : List Nat :=
  (p.pollers.zipIdx.filter fun (poller, _) => poller.phase = .granted).map (·.2)

/-- The call of the store that writes an outcome. -/
def callFor : Resolution → StoreCall
  | .ack => .complete
  | .requeue => .requeue
  | .nack _ => .failAttempt

/-- Writes an outcome to the store. -/
def write (id : TaskId) (now : Instant) : Resolution → StoreM Unit
  | .ack => Store.complete id now
  | .requeue => Store.requeue id now
  | .nack message => do
    let _ ← Store.failAttempt id message now

/-- Does what a pool asks for. -/
def serve (s : Simulation) (n : Nat) : Pool.Request → Simulation
  | .claim i pattern => s.begin .claimNext (.claim n i pattern s.now)
  | .handle j i task => s.enqueue (.handler n j i task)
  | .write j id resolution => s.begin (callFor resolution) (.resolve n j id resolution s.now)

/-- Lets something happen to a pool. A poller that is given a permit wakes up at this instant, a stop that waits for the
    pool looks after its permits, and what the pool asks for is done. -/
def inPool (s : Simulation) (n : Nat) (event : Pool.Event) : Simulation :=
  match s.poolAt n with
  | none => s
  | some before =>
    let pool := (before.after event).after .collect
    let woken := (grantedIn pool).filter fun i => i ∉ grantedIn before
    let s := woken.foldl (fun s i => s.enqueue (.poller n i))
      { s with pools := s.pools.modify n fun site => { site with pool } }
    (before.requests event).foldl (fun s request => s.serve n request) s

/-- The store answers a poller. With a task the poller goes on at once, and without one it rests. -/
def answerPoller (s : Simulation) (n i : Nat) (pattern : Pattern) (now : Instant) (fault : Option StoreFault) :
    Simulation :=
  match s.pools[n]? with
  | none => s
  | some site =>
    let (answer, s) := s.perform fault (Store.claimNext pattern now)
    match answer with
    | .ok (some task) =>
      ((s.inPool n (.claimed i (some task))).enqueue (.dispatch n site.pool.dispatches.length)).atOnce (.poller n i)
    | .error .crashed => s.inPool n (.pollerCrashed i)
    | _ =>
      let s := s.inPool n (.claimed i none)
      if s.pollerPhase n i = some .resting then s.after site.settings.pollInterval (.poller n i) else s

/-- A handler begins: the call is noted, and its act is played. -/
def beginHandler (s : Simulation) (n j i : Nat) (task : Task) : Simulation :=
  match s.pools[n]? with
  | none => s
  | some site =>
    match site.pool.pollers[i]?, site.scripts[i]? with
    | some poller, some script =>
      let act := script.next
      let scripts := site.scripts.modify i fun script => { script with played := script.played + 1 }
      let s : Simulation := { s with
        calls := s.calls ++ [{ time := s.now, pattern := poller.pattern, task }]
        pools := s.pools.modify n fun site => { site with scripts } }
      if act.sleep = .zero then s.enqueue (.handled n j act.ending) else s.after act.sleep (.ending n j act.ending)
    | _, _ => s

/-- The store answers a dispatch. -/
def answerDispatch (s : Simulation) (n j : Nat) (id : TaskId) (resolution : Resolution) (now : Instant)
    (fault : Option StoreFault) : Simulation :=
  let (answer, s) := s.perform fault (write id now resolution)
  match answer with
  | .ok () => s.inPool n (.resolved j true)
  | .error (.refused _) => s.inPool n (.resolved j false)
  | .error .crashed => s.inPool n (.dispatchCrashed j)

/-! ### Schedulers and reapers -/

/-- What a run is doing. -/
def runPhase (s : Simulation) (n k : Nat) : RunPhase :=
  match s.keepers[n]? with
  | some keeper => keeper.background.phaseAt k
  | none => .ended

/-- Lets something happen to a keeper. -/
def inKeeper (s : Simulation) (n : Nat) (event : Background.Event) : Simulation :=
  { s with keepers := s.keepers.modify n fun keeper => { keeper with background := keeper.background.after event } }

/-- The time between two passes. -/
def Duty.interval : Duty → Span
  | .fire settings => settings.pollInterval
  | .reap settings => settings.interval

/-- A pass is over, and the run rests unless it ends. -/
def endPass (s : Simulation) (n k : Nat) (ending : PassEnding) : Simulation :=
  match s.keepers[n]? with
  | none => s
  | some keeper =>
    let s := s.inKeeper n (.passed k ending)
    if s.runPhase n k = .resting then s.after (Duty.interval keeper.duty) (.run n k) else s

/-- The call of the store that a pass makes, if it makes one. -/
def passCall (duty : Duty) (now : Instant) : Option StoreCall :=
  match duty with
  | .fire _ => some .fireDue
  | .reap settings => (Queue.cutoff? now settings.stuckTimeout).map fun _ => .resetStuck

/-- A run wakes up, and may begin a pass. The rest before a first pass is taken to be over at once. -/
def wakeRun (s : Simulation) (n k : Nat) : Simulation :=
  match s.keepers[n]? with
  | none => s
  | some keeper =>
    let woken := s.inKeeper n (.wake k)
    if (keeper.background.begins (.wake k)).isSome then
      match passCall keeper.duty s.now with
      | some call => woken.begin call (.pass n k s.now)
      | none => woken.endPass n k .done
    else if s.runPhase n k = .starting ∧ woken.runPhase n k = .resting then woken.atOnce (.run n k)
    else woken

/-- The work of a pass in the store, as of a given time. -/
def makePass (s : Simulation) (duty : Duty) (now : Instant) (fault : Option StoreFault) :
    Except (Halt StoreFault) Unit × Simulation :=
  match duty with
  | .fire settings =>
    let (answer, s) := s.fireDue fault now settings.batchSize settings.maxAttempts
    (answer.map fun _ => (), s)
  | .reap settings =>
    match Queue.cutoff? now settings.stuckTimeout with
    | none => (.ok (), s)
    | some cutoff =>
      let (answer, s) := s.perform fault (Store.resetStuck cutoff now)
      (answer.map fun _ => (), s)

/-- How a pass ends that is answered so. -/
def endingOf : Except (Halt StoreFault) Unit → PassEnding
  | .ok () => .done
  | .error (.refused _) => .faulted
  | .error .crashed => .crashed

/-- The store answers a run, unless that has been aborted. -/
def answerRun (s : Simulation) (n k : Nat) (now : Instant) (fault : Option StoreFault) : Simulation :=
  match s.keepers[n]? with
  | none => s
  | some keeper =>
    if s.runPhase n k = .passing then
      let (answer, s) := s.makePass keeper.duty now fault
      s.endPass n k (endingOf answer)
    else s

/-! ### Time -/

/-- Lets one thing happen. -/
def happen (s : Simulation) : Work → Simulation
  | .poller n i => s.inPool n (.wake i)
  | .claim n i pattern now fault => s.answerPoller n i pattern now fault
  | .dispatch n j => s.inPool n (.begun j)
  | .handler n j i task => s.beginHandler n j i task
  | .ending n j ending => s.enqueue (.handled n j ending)
  | .handled n j ending => s.inPool n (.handled j ending)
  | .resolve n j id resolution now fault => s.answerDispatch n j id resolution now fault
  | .run n k => s.wakeRun n k
  | .pass n k now fault => s.answerRun n k now fault

/-- Lets everything happen that can happen at this instant, at most `fuel` things. -/
def settle : Nat → Simulation → Simulation
  | 0, s => s
  | fuel + 1, s =>
    match s.ready with
    | [] => s
    | w :: rest => settle fuel ({ s with ready := rest }.happen w)

/-- Lets things happen and time pass until a condition holds, but at most to a deadline. What is due at the deadline has
    not yet happened then, so that whoever waits acts first. -/
def runUntil (condition : Simulation → Bool) (deadline : Span) : Nat → Simulation → Simulation
  | 0, s => s
  | fuel + 1, s =>
    if deadline ≤ s.elapsed then s
    else match s.ready with
      | w :: rest => runUntil condition deadline fuel ({ s with ready := rest }.happen w)
      | [] =>
        if condition s then s
        else match s.timers with
          | (due, _) :: _ => if due < deadline then runUntil condition deadline fuel (s.passTo due) else s.passTo deadline
          | [] => s.passTo deadline

/-- More things than happen in any run that comes to an end. -/
def enough : Nat := 100000000

end Simulation
end DurableQueue
