import DurableQueue.Store.Tasks

/-! The calls of the store that concern cron jobs. New jobs and the tasks that jobs make take their identifiers from a
    supply, by their place in the call. -/

namespace DurableQueue
namespace Store

open StoreM

/-- Registers one definition: a job of that name gets it, or a new job is made. -/
def upsertJob (id : JobId) (spec : JobSpec) (now : Instant) : StoreM Job := do
  let job ← match (← get).jobs.get? spec.name with
    | some job => ofOutcome (job.apply spec now)
    | none => ofOutcome (Job.create id spec now)
  putJob job
  return job

/-- Registers definitions one after the other, with identifiers from the given place of the supply on. -/
def upsertFrom (ids : Nat → JobId) (now : Instant) : Nat → List JobSpec → StoreM (List Job)
  | _, [] => return []
  | place, spec :: rest => do
    let job ← upsertJob (ids place) spec now
    return job :: (← upsertFrom ids now (place + 1) rest)

/-- Registers definitions, all of which have to be valid, and gives the jobs in the same order. -/
def upsertJobs (ids : Nat → JobId) (specs : List JobSpec) (now : Instant) : StoreM (List Job) := do
  ofRule (specs.forM JobSpec.validate)
  locked (upsertFrom ids now 0 specs)

/-- The job with a name. -/
def getJob (name : String) : StoreM (Option Job) := locked do return (← get).jobs.get? name

/-- All jobs by name. -/
def listJobs : StoreM (List Job) := locked do return (← get).jobs.rows.mergeSort fun a b => a.name ≤ b.name

/-- The jobs that fire: of those that are due, the first by the time of their fire, at most `limit`. -/
def selectDue (jobs : List Job) (now : Instant) (limit : Nat) : List Job :=
  ((jobs.filter (·.isDue now)).mergeSort fun a b => a.nextRunAt ≤ b.nextRunAt).take limit

/-- Fires jobs one after the other, with identifiers from the given place of the supply on, and writes nothing. -/
def fireFrom (ids : Nat → TaskId) (now : Instant) (maxAttempts : Nat) :
    Nat → List Job → Outcome Refusal (List FiredJob)
  | _, [] => .ok []
  | place, job :: rest => do
    let (job, fire) ← job.fire (ids place) now maxAttempts
    return ⟨job, fire⟩ :: (← fireFrom ids now maxAttempts (place + 1) rest)

/-- Fires the jobs that are due, at most `limit`: first all of them are fired, then the tasks are written, and then the
    jobs. -/
def fireDue (ids : Nat → TaskId) (now : Instant) (limit maxAttempts : Nat) : StoreM (List FiredJob) := locked do
  let fired ← ofOutcome (fireFrom ids now maxAttempts 0 (selectDue (← get).jobs.rows now limit))
  insertAll (fired.map (·.fire.task))
  fired.forM fun f => putJob f.job
  return fired

end Store
end DurableQueue
