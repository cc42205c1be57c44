import DurableQueue.Job
import DurableQueue.Json.Printer
import DurableQueue.Json.Walk.Parts

/-! Cron jobs and their definitions as JSON records, and the reading of a whole file of definitions. -/

namespace DurableQueue

def Json.decodeJobStatus (form : Json.Form) : Json.Decoder JobStatus :=
  Json.decodeWord form (JobStatus.all.map JobStatus.word) JobStatus.ofWord?

namespace JobSpec

/-- The fields of a definition. -/
def fields (form : Json.Form) : List Json.RecordField :=
  [.required "name" Json.decodeString, .required "expression" Json.decodeExpression,
    .withDefault "status" (Json.decodeJobStatus form), .required "subject" Json.decodeString,
    .withDefault "payload" Json.decodeBytes, .withDefault "task_run_after" (Json.decodeSpan form)]

/-- Reads a definition. Without a status it is active, without a payload that is empty, and without a delay the tasks run
    at once. -/
def decode (form : Json.Form) : Json.Decoder JobSpec := fun v => do
  let m ← Json.decodeMembers form "CronJobSpec" (fields form) v
  .ok {
    name := ← m.required "name" Json.decodeString
    expression := ← m.required "expression" Json.decodeExpression
    status := ← m.withDefault "status" (Json.decodeJobStatus form) .active
    subject := ← m.required "subject" Json.decodeString
    payload := ← m.withDefault "payload" Json.decodeBytes []
    delay := ← m.withDefault "task_run_after" (Json.decodeSpan form) .zero }

/-- Writes a definition. -/
def encode (spec : JobSpec) : Json := .object
  [("name", .string spec.name), ("expression", .string spec.expression.source), ("status", .string spec.status.word),
    ("subject", .string spec.subject), ("payload", .bytes spec.payload), ("task_run_after", .ofSpan spec.delay)]

/-- Why a text is not a list of valid definitions. -/
inductive ListFault where
  /-- The text holds no list of definitions. -/
  | unreadable (fault : Json.TextFault)
  /-- A definition is refused. -/
  | refused (cause : Refusal)
  deriving Repr

/-- Reads a list of definitions, all of which have to be valid. -/
def readList (text : String) : Except ListFault (List JobSpec) :=
  match Json.readAs (Json.decodeList (decode .text)) text with
  | .error fault => .error (.unreadable fault)
  | .ok specs =>
    match specs.forM validate with
    | .error cause => .error (.refused cause)
    | .ok () => .ok specs

/-- The way over a list of definitions. -/
def walk : Json.Walk Json := Json.Walk.aList (Json.Walk.aRecord
  { name := "CronJobSpec"
    lengthName := "struct CronJobSpec with 6 elements"
    legs :=
      [⟨"name", false, Json.Walk.aString "a string"⟩,
        ⟨"expression", false, Json.Walk.aRuledString Json.decodeExpression⟩,
        ⟨"status", true, Json.Walk.aWord (JobStatus.all.map JobStatus.word)⟩,
        ⟨"subject", false, Json.Walk.aString "a string"⟩, ⟨"payload", true, Json.Walk.bytes⟩,
        ⟨"task_run_after", true, Json.Walk.aSpan⟩]
    stranger := fun _ => none
    rule := fun _ => .ok () })

/-- Why a text holds no list of definitions, and where it goes wrong. -/
def troubleIn (text : String) : Option String := (Json.stopOf walk text).map Json.Stop.text

/-- Writes a list of definitions. -/
def writeList (specs : List JobSpec) : String := (Json.array (specs.map encode)).print

end JobSpec

namespace Job

/-- The fields of a cron job. -/
def fields (form : Json.Form) : List Json.RecordField :=
  [.required "id" Json.decodeJobId, .required "name" Json.decodeString,
    .required "expression" Json.decodeExpression, .required "status" (Json.decodeJobStatus form),
    .required "subject" Json.decodeString, .required "payload" Json.decodeBytes,
    .required "task_run_after" (Json.decodeSpan form), .required "next_run_at" Json.decodeInstant,
    .nullable "last_run_at" Json.decodeInstant, .required "created_at" Json.decodeInstant,
    .required "updated_at" Json.decodeInstant]

/-- Reads a cron job. -/
def decode (form : Json.Form) : Json.Decoder Job := fun v => do
  let m ← Json.decodeMembers form "CronJob" (fields form) v
  .ok {
    id := ← m.required "id" Json.decodeJobId
    name := ← m.required "name" Json.decodeString
    expression := ← m.required "expression" Json.decodeExpression
    status := ← m.required "status" (Json.decodeJobStatus form)
    subject := ← m.required "subject" Json.decodeString
    payload := ← m.required "payload" Json.decodeBytes
    delay := ← m.required "task_run_after" (Json.decodeSpan form)
    nextRunAt := ← m.required "next_run_at" Json.decodeInstant
    lastRunAt := ← m.nullable "last_run_at" Json.decodeInstant
    createdAt := ← m.required "created_at" Json.decodeInstant
    updatedAt := ← m.required "updated_at" Json.decodeInstant }

/-- Writes a cron job. -/
def encode (job : Job) : Json := .object
  [("id", .string job.id.text), ("name", .string job.name), ("expression", .string job.expression.source),
    ("status", .string job.status.word), ("subject", .string job.subject), ("payload", .bytes job.payload),
    ("task_run_after", .ofSpan job.delay), ("next_run_at", .ofInstant job.nextRunAt),
    ("last_run_at", .option .ofInstant job.lastRunAt), ("created_at", .ofInstant job.createdAt),
    ("updated_at", .ofInstant job.updatedAt)]

end Job
end DurableQueue
