import DurableQueue.Limits
import DurableQueue.Text.Blank

/-! Settings of the parts that run by themselves, and their reading from named texts such as the variables of a process.
    A text that is there has to be right, also where nothing uses it; what is not there has its usual value. -/

namespace DurableQueue

/-- Settings of a pool of consumers. -/
structure PoolSettings where
  /-- How long a consumer waits when there was nothing to claim. -/
  pollInterval : Span := .ofSeconds 1
  /-- How many handlers may run at a time. -/
  maxConcurrency : Nat := 10
  /-- How long stopping waits for handlers. -/
  shutdownTimeout : Span := .ofSeconds 30
  deriving DecidableEq, Repr

/-- Settings of a scheduler of cron jobs. -/
structure SchedulerSettings where
  pollInterval : Span := .ofSeconds 10
  /-- How many jobs may fire in one pass. -/
  batchSize : Nat := 100
  stopTimeout : Span := .ofSeconds 10
  /-- The attempts of the tasks that jobs make. -/
  maxAttempts : Nat := defaultMaxAttempts
  deriving DecidableEq, Repr

/-- Settings of a reaper of stuck tasks. -/
structure ReaperSettings where
  interval : Span := .ofSeconds 60
  /-- A task that has been running for longer is stuck. -/
  stuckTimeout : Span := .ofSeconds 600
  stopTimeout : Span := .ofSeconds 10
  deriving DecidableEq, Repr

/-- Settings of a whole process. -/
structure Settings where
  databaseUrl : String
  maxConnections : Nat
  pool : PoolSettings
  scheduler : SchedulerSettings
  reaper : ReaperSettings
  /-- A file with definitions of cron jobs. -/
  cronFile : Option String
  deriving DecidableEq, Repr

/-- With a number of handlers, of which there is at least one. -/
def PoolSettings.withMaxConcurrency (s : PoolSettings) (n : Nat) : PoolSettings := { s with maxConcurrency := max n 1 }

/-- With a number of jobs a pass, of which there is at least one. -/
def SchedulerSettings.withBatchSize (s : SchedulerSettings) (n : Nat) : SchedulerSettings :=
  { s with batchSize := max n 1 }

/-- Why there are no settings. -/
inductive SettingsFault where
  | missing (key : String)
  | invalid (key value : String) (fault : Text.NumberFault)
  deriving DecidableEq, Repr

/-- What a reader of the message is told. -/
def SettingsFault.message : SettingsFault → String
  | missing key => "missing required environment variable " ++ key
  | invalid key value fault => "invalid value for " ++ key ++ ": `" ++ value ++ "` (" ++ fault.message ++ ")"

namespace Settings

/-- Named texts. -/
abbrev Lookup := String → Option String

/-- A number below a bound, with white space around it. -/
def number (lookup : Lookup) (key : String) (bound usual : Nat) : Except SettingsFault Nat :=
  match lookup key with
  | none => .ok usual
  | some value =>
    match Text.readUnsigned bound (Text.trim value) with
    | .ok n => .ok n
    | .error fault => .error (.invalid key value fault)

/-- A length of time in milliseconds. -/
def millis (lookup : Lookup) (key : String) (usual : Span) : Except SettingsFault Span := do
  .ok (.ofMillis (← number lookup key wordBound (usual.nanos / Span.perMilli)))

/-- A length of time in seconds. -/
def secs (lookup : Lookup) (key : String) (usual : Span) : Except SettingsFault Span := do
  .ok (.ofSeconds (← number lookup key wordBound usual.seconds))

/-- The names of all texts that are looked up. -/
def keys : List String :=
  ["DATABASE_URL", "DURAQ_CONSUMER_POLL_MS", "DURAQ_MAX_CONCURRENCY", "DURAQ_SHUTDOWN_TIMEOUT_SECS",
    "DURAQ_SCHEDULER_POLL_MS", "DURAQ_SCHEDULER_BATCH", "DURAQ_DEFAULT_MAX_ATTEMPTS", "DURAQ_REAPER_INTERVAL_SECS",
    "DURAQ_STUCK_TIMEOUT_SECS", "DURAQ_MAX_CONNECTIONS", "DURAQ_CRON_FILE"]

/-- The connections to a database when no number is given. -/
def usualConnections : Nat := 10

/-- Reads the settings of a process. -/
def read (lookup : Lookup) : Except SettingsFault Settings := do
  let databaseUrl ←
    match (lookup "DATABASE_URL").filter (!Text.allBlank ·) with
    | some url => Except.ok url
    | none => .error (.missing "DATABASE_URL")
  let pool : PoolSettings := {}
  let scheduler : SchedulerSettings := {}
  let reaper : ReaperSettings := {}
  let poll ← millis lookup "DURAQ_CONSUMER_POLL_MS" pool.pollInterval
  let concurrency ← number lookup "DURAQ_MAX_CONCURRENCY" wordBound pool.maxConcurrency
  let shutdown ← secs lookup "DURAQ_SHUTDOWN_TIMEOUT_SECS" pool.shutdownTimeout
  let tick ← millis lookup "DURAQ_SCHEDULER_POLL_MS" scheduler.pollInterval
  let batch ← number lookup "DURAQ_SCHEDULER_BATCH" wordBound scheduler.batchSize
  let attempts ← number lookup "DURAQ_DEFAULT_MAX_ATTEMPTS" counterBound scheduler.maxAttempts
  let interval ← secs lookup "DURAQ_REAPER_INTERVAL_SECS" reaper.interval
  let stuck ← secs lookup "DURAQ_STUCK_TIMEOUT_SECS" reaper.stuckTimeout
  let maxConnections ← number lookup "DURAQ_MAX_CONNECTIONS" counterBound usualConnections
  .ok {
    databaseUrl, maxConnections
    pool := { pool with pollInterval := poll, shutdownTimeout := shutdown }.withMaxConcurrency concurrency
    scheduler := { scheduler with pollInterval := tick, maxAttempts := attempts }.withBatchSize batch
    reaper := { reaper with interval, stuckTimeout := stuck }
    cronFile := lookup "DURAQ_CRON_FILE" }

end Settings

/-- How a process writes its log. -/
inductive LogFormat where
  | json
  | pretty
  deriving DecidableEq, Repr

namespace LogFormat

/-- The format that a word names, in any case of ASCII letters and with white space around it. -/
def ofWord? (s : String) : Option LogFormat :=
  let word := (Text.trim s).toLower
  if word = "json" then some json
  else if word = "pretty" ∨ word = "text" then some pretty
  else none

/-- What a reader is told about a word that names no format. -/
def unknownText (s : String) : String := "unknown log format `" ++ s ++ "` (expected `json` or `pretty`)"

end LogFormat
end DurableQueue
