import DurableQueue.Json.Decode
import DurableQueue.Task

/-! Tasks as JSON records. -/

namespace DurableQueue
namespace Task

/-- The fields of a task. -/
def fields (form : Json.Form) : List Json.RecordField :=
  [.required "id" Json.decodeTaskId, .required "subject" Json.decodeString,
    .required "status" (Json.decodeTaskStatus form), .required "run_after" Json.decodeInstant,
    .required "payload" Json.decodeBytes, .required "max_attempts" Json.decodeCounter,
    .required "attempts" Json.decodeCounter, .nullable "last_error" Json.decodeString,
    .nullable "last_attempt" Json.decodeInstant, .required "created_at" Json.decodeInstant,
    .required "updated_at" Json.decodeInstant]

/-- Reads a task. -/
def decode (form : Json.Form) : Json.Decoder Task := fun v => do
  let m ← Json.decodeMembers form "Task" (fields form) v
  .ok {
    id := ← m.required "id" Json.decodeTaskId
    subject := ← m.required "subject" Json.decodeString
    status := ← m.required "status" (Json.decodeTaskStatus form)
    runAfter := ← m.required "run_after" Json.decodeInstant
    payload := ← m.required "payload" Json.decodeBytes
    maxAttempts := ← m.required "max_attempts" Json.decodeCounter
    attempts := ← m.required "attempts" Json.decodeCounter
    lastError := ← m.nullable "last_error" Json.decodeString
    lastAttempt := ← m.nullable "last_attempt" Json.decodeInstant
    createdAt := ← m.required "created_at" Json.decodeInstant
    updatedAt := ← m.required "updated_at" Json.decodeInstant }

/-- Writes a task. -/
def encode (t : Task) : Json := .object
  [("id", .string t.id.text), ("subject", .string t.subject), ("status", .string t.status.word),
    ("run_after", .ofInstant t.runAfter), ("payload", .bytes t.payload), ("max_attempts", .nat t.maxAttempts),
    ("attempts", .nat t.attempts), ("last_error", .option .string t.lastError),
    ("last_attempt", .option .ofInstant t.lastAttempt), ("created_at", .ofInstant t.createdAt),
    ("updated_at", .ofInstant t.updatedAt)]

end Task
end DurableQueue
