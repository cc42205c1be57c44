import DurableQueue.Relational.Calls
import DurableQueue.Worker.Help
import DurableQueue.Worker.Report

/-! The worker: reads its arguments and its settings, and then does one thing with a relational database. What it does is
    a conversation with the database and a text that is printed at its end. -/

namespace DurableQueue
namespace Worker

/-- What a process finds around it. -/
structure Surroundings where
  /-- Variables that the process has been given. -/
  lookup : Settings.Lookup
  /-- What is in a file, if there is one. -/
  file : String → Option String
  now : Instant
  taskIds : Nat → TaskId
  jobIds : Nat → JobId

/-- How a process ends: with a code, and with texts on its two outputs. -/
structure Exit where
  code : Nat
  output : String := ""
  error : String := ""
  deriving DecidableEq, Repr

namespace Exit

/-- All has gone well. -/
def done (output : String) : Exit := { code := 0, output }

/-- Something has come to nothing. -/
def failed (r : Report) : Exit := { code := 1, error := r.text }

/-- The arguments cannot be understood. -/
def misused : Exit := { code := 2, error := guide.text }

/-- The process has ended in the middle. -/
def crashed : Exit := { code := 101 }

/-- How a process ends that prints what it has got. -/
def of : Outcome Report String → Exit
  | .ok output => done output
  | .error (.refused r) => failed r
  | .error .crashed => crashed

end Exit

/-- Reads arguments and settings. There may be nothing more to do. -/
def prepare (lookup : Settings.Lookup) (arguments : List String) : Except Exit (Settings × Command) :=
  match readRequest arguments with
  | none => .error .misused
  | some .version => .error (.done versionText)
  | some (.explain topic) => .error (.done (helpText topic))
  | some (.perform command) =>
    match Settings.read lookup with
    | .ok settings => .ok (settings, command)
    | .error fault => .error (.failed ((Report.ofSettings fault).within "failed to load configuration"))

/-- How the process ends when it gets no connection to the database. -/
def unconnected (fault : StoreFault) : Exit :=
  .failed ((Report.ofStore fault).within "failed to connect to database")

/-! ### Commands -/

/-- A part of what the worker does. -/
abbrev Errand := ExceptT (Halt Report) Relational.Dialogue

namespace Errand

/-- Ends with a report. -/
def fail {α : Type} (r : Report) : Errand α := throw (.refused r)

/-- A call whose faults are reported in a given way. -/
def call {ε α : Type} (report : ε → Report) (d : Relational.Dialogue (Outcome ε α)) : Errand α :=
  ExceptT.mk do return (← d).mapCause report

end Errand

/-- Publishes one task and prints its identifier. -/
def publish (s : Surroundings) (subject payload : String) (delay maxAttempts : Option Nat) : Errand String := do
  let new := NewTask.of subject payload.toUTF8.toList
  let new ← match delay with
    | none => pure new
    | some seconds => match new.delayed s.now (.ofSeconds seconds) with
      | .ok new => pure new
      | .error cause => Errand.fail ⟨"invalid --delay-secs", [cause.message]⟩
  let new := { new with maxAttempts := maxAttempts.getD new.maxAttempts }
  let ids ← Errand.call Report.ofQueue
    (Queue.publish (fun tasks => (Relational.insertTasks tasks).run) s.taskIds s.now [new])
  return String.join (ids.map fun id => id.text ++ "\n")

/-- Puts back stuck tasks. -/
def cleanup (s : Surroundings) (timeout : Span) : Errand Nat :=
  Errand.call Report.ofQueue
    (Queue.cleanup (fun cutoff now => (Relational.resetStuck cutoff now).run) s.now timeout)

/-- Counts as a JSON object. -/
def countsJson (c : TaskCounts) : Json := .object
  [("pending", .nat c.pending), ("running", .nat c.running), ("completed", .nat c.completed), ("failed", .nat c.failed)]

/-- Registers the definitions in a file. -/
def registerFile (s : Surroundings) (path : String) : Errand Unit :=
  match s.file path with
  | none => Errand.fail ⟨"failed to read cron file " ++ path, ["No such file or directory (os error 2)"]⟩
  | some text =>
    match JobSpec.readList text with
    | .error fault => Errand.fail ((Report.ofList text fault).within ("invalid cron file " ++ path))
    | .ok specs => do
      let _ ← Errand.call Report.ofScheduler
        (Scheduler.register (fun specs => (Relational.upsertJobs s.jobIds specs s.now).run) specs)

/-- Registers the definitions that there are and starts the scheduler and the reaper. It is interrupted when the reaper
    has made its first pass, which may come to nothing, and before the scheduler makes one. -/
def run (s : Surroundings) (settings : Settings) : Errand String := do
  match settings.cronFile with
  | none => pure ()
  | some path => registerFile s path
  let _ ← ExceptT.lift (cleanup s settings.reaper.stuckTimeout).run
  return ""

/-- Carries out a command. -/
def perform (s : Surroundings) (settings : Settings) : Command → Errand String
  | .migrate => do
    Errand.call (fun fault => (Report.ofStore fault).within "migration failed") Relational.migrate.run
    return ""
  | .cleanup timeout => do
    let _ ← cleanup s ((timeout.map Span.ofSeconds).getD settings.reaper.stuckTimeout)
    return ""
  | .stats => do return (countsJson (← Errand.call Report.ofStore Relational.stats.run)).pretty ++ "\n"
  | .publish subject payload delay maxAttempts => publish s subject payload delay maxAttempts
  | .run => run s settings

/-- Carries out a command to the end of the process. -/
def serve (s : Surroundings) (settings : Settings) (command : Command) : Relational.Dialogue Exit := do
  return Exit.of (← (perform s settings command).run)

end Worker
end DurableQueue
