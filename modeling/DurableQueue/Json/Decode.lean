import DurableQueue.Identifier
import DurableQueue.Instant.Reader
import DurableQueue.Json.Reader
import DurableQueue.Schedule.Expression
import DurableQueue.Subject.Pattern
import DurableQueue.Text.Escaped

/-! Reading records and their parts from JSON values. A value has the wrong kind, or the right kind and is wrong in
    itself; each fault says what was found and what was wanted.

    A record is an object with its fields as members, or an array with its fields in order. Members of other names do not
    count. The first member with a fault gives it; only when there is none do missing fields count, in their order.

    Values come straight from a text, where an object can have a member twice, or from a document that has been read
    before, whose objects have each member once. The two differ in a few faults. -/

namespace DurableQueue
namespace Json

/-- Where a value comes from. -/
inductive Form where
  /-- Straight from a text. -/
  | text
  /-- Out of a document that has been read before. -/
  | document
  deriving DecidableEq, Repr

/-- Why a value is not what was wanted. -/
inductive Fault where
  | missingField (name : String)
  | duplicateField (name : String)
  | unknownField (name : String) (known : List String)
  | wrongKind (found : Json) (wanted : String)
  | wrongValue (found : Json) (wanted : String)
  | wrongLength (found : Nat) (wanted : String)
  | unknownVariant (word : String) (known : List String)
  | noVariant
  | noSingleKey
  | surplusItems (form : Form) (length : Nat)
  | spanTooLong
  | identifier (fault : Uuid.ReadFault)
  | time (fault : Instant.ReadFault)
  | refused (cause : Refusal)
  deriving Repr

/-- A value as messages name it. -/
def described : Json → String
  | .null => "null"
  | .bool b => "boolean `" ++ (if b then "true" else "false") ++ "`"
  | .integer n => "integer `" ++ toString n ++ "`"
  | .real x => "floating point `" ++ x.text ++ "`"
  | .string s => "string " ++ Text.quoted s
  | .array _ => "sequence"
  | .object _ => "map"
  | .unreadable => "nothing"

/-- Names in the order in which they are known: two of them with "or", more as a list. -/
def choiceText : List String → String
  | [a, b] => "`" ++ a ++ "` or `" ++ b ++ "`"
  | names => "one of " ++ ", ".intercalate (names.map fun name => "`" ++ name ++ "`")

/-- What a reader of the message is told. -/
def Fault.message : Fault → String
  | missingField name => "missing field `" ++ name ++ "`"
  | duplicateField name => "duplicate field `" ++ name ++ "`"
  | unknownField name known => "unknown field `" ++ name ++ "`, expected " ++ choiceText known
  | wrongKind found wanted => "invalid type: " ++ found.described ++ ", expected " ++ wanted
  | wrongValue found wanted => "invalid value: " ++ found.described ++ ", expected " ++ wanted
  | wrongLength found wanted => "invalid length " ++ toString found ++ ", expected " ++ wanted
  | unknownVariant word known => "unknown variant `" ++ word ++ "`, expected " ++ choiceText known
  | noVariant => "expected value"
  | noSingleKey => "invalid value: map, expected map with a single key"
  | surplusItems .text _ => "trailing characters"
  | surplusItems .document length => "invalid length " ++ toString length ++ ", expected fewer elements in array"
  | spanTooLong => "overflow deserializing Duration"
  | identifier fault => "UUID parsing failed: " ++ fault.message
  | time fault => fault.message
  | refused cause => cause.message

/-- A reader of one kind of value. -/
abbrev Decoder (α : Type) := Json → Except Fault α

/-! ### Parts -/

def decodeString : Decoder String
  | .string s => .ok s
  | v => .error (.wrongKind v "a string")

/-- A natural number below a bound. -/
def decodeNat (bound : Nat) (wanted : String) : Decoder Nat
  | .integer n => if 0 ≤ n ∧ n < bound then .ok n.toNat else .error (.wrongValue (.integer n) wanted)
  | v => .error (.wrongKind v wanted)

/-- A counter of attempts. -/
def decodeCounter : Decoder Nat := decodeNat counterBound "u32"

def decodeByte : Decoder UInt8 := fun v => (decodeNat 256 "u8" v).map UInt8.ofNat

/-- The items of an array. -/
def decodeList {α : Type} (one : Decoder α) : Decoder (List α)
  | .array items => items.mapM one
  | v => .error (.wrongKind v "a sequence")

def decodeBytes : Decoder (List UInt8) := decodeList decodeByte

/-- A value, or `null` for none. -/
def decodeOption {α : Type} (one : Decoder α) : Decoder (Option α)
  | .null => .ok none
  | v => (one v).map some

def decodeUuid : Decoder Uuid
  | .string s => match Uuid.read s with
    | .ok u => .ok u
    | .error fault => .error (.identifier fault)
  | v => .error (.wrongKind v "a formatted UUID string")

def decodeTaskId : Decoder TaskId := fun v => (decodeUuid v).map TaskId.mk

def decodeJobId : Decoder JobId := fun v => (decodeUuid v).map JobId.mk

def decodeInstant : Decoder Instant
  | .string s => match Instant.read s with
    | .ok t => .ok t
    | .error fault => .error (.time fault)
  | v => .error (.wrongKind v "an RFC 3339 formatted date and time string")

/-- A text that a rule may refuse. -/
def decodeRead {α : Type} (read : String → Except Refusal α) : Decoder α := fun v => do
  match read (← decodeString v) with
  | .ok a => .ok a
  | .error cause => .error (.refused cause)

def decodePattern : Decoder Pattern := decodeRead Pattern.read

/-- A cron expression, refused with its text. -/
def readExpression (source : String) : Except Refusal Expression :=
  match Expression.read source with
  | .ok e => .ok e
  | .error fault => .error (.badExpression source fault)

def decodeExpression : Decoder Expression := decodeRead readExpression

/-- One of some words, alone or as the only key of an object with `null` behind it. -/
def decodeWord {α : Type} (form : Form) (known : List String) (ofWord? : String → Option α) : Decoder α :=
  let named (word : String) : Except Fault α :=
    match ofWord? word with
    | some a => .ok a
    | none => .error (.unknownVariant word known)
  let behind (word : String) (content : Json) : Except Fault α := do
    let a ← named word
    match content with
    | .null => .ok a
    | v => .error (.wrongKind v "unit")
  fun v => match form, v with
    | _, .string word => named word
    | _, .object [(word, content)] => behind word content
    | .text, .object ((word, content) :: _) => do
      let _ ← behind word content
      .error .noVariant
    | .text, _ => .error .noVariant
    | .document, .object _ => .error .noSingleKey
    | .document, v => .error (.wrongKind v "string or map")

def decodeTaskStatus (form : Form) : Decoder TaskStatus :=
  decodeWord form (TaskStatus.all.map TaskStatus.word) TaskStatus.ofWord?

/-! ### Records -/

/-- A field of a record: its name, what its value has to be, and where it may be left out. -/
structure RecordField where
  name : String
  check : Json → Except Fault Unit
  /-- An object need not have it. -/
  optional : Bool
  /-- An array need not have it either. -/
  skippable : Bool

/-- Whether a value can be decoded, without the result. -/
def checked {α : Type} (one : Decoder α) (v : Json) : Except Fault Unit := (one v).map fun _ => ()

/-- A field that has to be there. -/
def RecordField.required {α : Type} (name : String) (one : Decoder α) : RecordField :=
  ⟨name, checked one, false, false⟩

/-- A field that may be missing from an object and then counts as `null`. -/
def RecordField.nullable {α : Type} (name : String) (one : Decoder α) : RecordField :=
  ⟨name, checked (decodeOption one), true, false⟩

/-- A field that has a usual value where it is missing. -/
def RecordField.withDefault {α : Type} (name : String) (one : Decoder α) : RecordField :=
  ⟨name, checked one, true, true⟩

/-- The members of a record by the names of its fields. -/
abbrev Members := List (String × Json)

/-- The value of a field that has to be there. -/
def Members.required {α : Type} (m : Members) (name : String) (one : Decoder α) : Except Fault α :=
  match m.lookup name with
  | some v => one v
  | none => .error (.missingField name)

/-- The value of a field that may be missing or `null`. -/
def Members.nullable {α : Type} (m : Members) (name : String) (one : Decoder α) : Except Fault (Option α) :=
  match m.lookup name with
  | some v => decodeOption one v
  | none => .ok none

/-- The value of a field that has a usual value where it is missing. -/
def Members.withDefault {α : Type} (m : Members) (name : String) (one : Decoder α) (usual : α) : Except Fault α :=
  match m.lookup name with
  | some v => one v
  | none => .ok usual

/-- Looks at the members of an object in order: each field at most once, and with a value that it can have. -/
def checkMembers (fields : List RecordField) : List String → Members → Except Fault Unit
  | _, [] => .ok ()
  | seen, (key, v) :: rest =>
    match fields.find? (·.name = key) with
    | none => checkMembers fields seen rest
    | some field => do
      if seen.contains key then .error (.duplicateField key)
      field.check v
      checkMembers fields (key :: seen) rest

/-- Looks at the items of an array in order. -/
def checkItems : List RecordField → List Json → Except Fault Unit
  | field :: fields, v :: items => do
    field.check v
    checkItems fields items
  | _, _ => .ok ()

/-- The members of a record that is written as an object or as an array. -/
def decodeMembers (form : Form) (name : String) (fields : List RecordField) : Decoder Members
  | .object members => do
    checkMembers fields [] members
    match fields.find? fun f => !f.optional && (members.lookup f.name).isNone with
    | some field => .error (.missingField field.name)
    | none => .ok members
  | .array items => do
    checkItems fields items
    match (fields.zipIdx.drop items.length).find? fun (f, _) => !f.skippable with
    | some (_, i) => .error (.wrongLength i ("struct " ++ name ++ " with " ++ toString fields.length ++ " elements"))
    | none =>
      if fields.length < items.length then .error (.surplusItems form items.length)
      else .ok ((fields.map (·.name)).zip items)
  | v => .error (.wrongKind v ("struct " ++ name))

/-! ### Texts -/

/-- Why a text does not hold what was wanted. -/
inductive TextFault where
  /-- The text is not JSON. -/
  | malformed
  /-- The text is JSON and has something else in it. -/
  | unfit (fault : Fault)
  deriving Repr

/-- What a reader of the message is told. -/
def TextFault.message : TextFault → String
  | malformed => "expected value"
  | unfit fault => fault.message

/-- Reads a text as one kind of value. Only the parts that are looked at have to be readable. -/
def readAs {α : Type} (one : Decoder α) (text : String) : Except TextFault α :=
  match scan text with
  | none => .error .malformed
  | some v =>
    match one v with
    | .ok a => .ok a
    | .error fault => .error (if v.isSound deepest then .unfit fault else .malformed)

/-! ### Lengths of time -/

/-- The names of the two parts of a length of time. -/
def spanParts : List String := ["secs", "nanos"]

def decodeSeconds : Decoder Nat := decodeNat wordBound "u64"

def decodeNanos : Decoder Nat := decodeNat counterBound "u32"

/-- Seconds and nanoseconds together: whole seconds among the nanoseconds are carried over. -/
def spanOf (seconds nanos : Nat) : Except Fault Span :=
  if seconds + nanos / Span.perSecond < wordBound then .ok ⟨seconds * Span.perSecond + nanos⟩ else .error .spanTooLong

/-- The fields of a length of time. -/
def spanFields : List RecordField := [.required "secs" decodeSeconds, .required "nanos" decodeNanos]

/-- The first member that is not part of a length of time. -/
def strangerIn (members : Members) : Option String :=
  (members.find? fun (key, _) => !spanParts.contains key).map (·.1)

/-- A length of time: an object with the two parts and nothing else, or an array of them. -/
def decodeSpan (form : Form) : Decoder Span
  | .object members => do
    let known := members.takeWhile fun (key, _) => spanParts.contains key
    checkMembers spanFields [] known
    match strangerIn members with
    | some name => .error (.unknownField name spanParts)
    | none => spanOf (← Members.required members "secs" decodeSeconds) (← Members.required members "nanos" decodeNanos)
  | .array items => do
    checkItems spanFields items
    match items with
    | [] => .error (.wrongLength 0 "struct Duration")
    | [_] => .error (.wrongLength 1 "struct Duration")
    | [seconds, nanos] => spanOf (← decodeSeconds seconds) (← decodeNanos nanos)
    | seconds :: nanos :: _ => do
      let _ ← spanOf (← decodeSeconds seconds) (← decodeNanos nanos)
      .error (.surplusItems form items.length)
  | v => .error (.wrongKind v "struct Duration")

/-! ### Writing parts -/

/-- A length of time as whole seconds and nanoseconds. -/
def ofSpan (d : Span) : Json := .object [("secs", .nat d.seconds), ("nanos", .nat d.subsecond)]

/-- A time. -/
def ofInstant (t : Instant) : Json := .string t.rfc3339

end Json
end DurableQueue
