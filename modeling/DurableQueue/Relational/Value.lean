import DurableQueue.Store

/-! What a relational database is told and what it tells: values, rows of named columns, and faults. A fault becomes a
    fault of the store by the code that the database gives it. -/

namespace DurableQueue
namespace Relational

/-- A value of a column. Numbers have 32 or 64 bits. -/
inductive Value where
  | null
  | uuid (value : Uuid)
  | text (value : String)
  | bytes (value : List UInt8)
  | int4 (value : Int)
  | int8 (value : Int)
  | time (value : Instant)
  deriving DecidableEq, Repr

/-- A text that may be missing. -/
def Value.ofText? : Option String → Value
  | some s => .text s
  | none => .null

/-- A time that may be missing. -/
def Value.ofTime? : Option Instant → Value
  | some t => .time t
  | none => .null

/-- Named columns with their values. -/
abbrev Row := List (String × Value)

/-- Why a statement has no answer, or an answer not the wanted value. -/
inductive SqlFault where
  /-- The database has refused the statement. -/
  | database (code message : String)
  /-- The connections to the database have been given up. -/
  | closed
  /-- There is no row where one has to be. -/
  | noRow
  | missingColumn (column : String)
  | nullColumn (column : String)
  /-- No connection could be opened in time. -/
  | unreachable
  /-- The address of the database has no scheme. -/
  | relativeAddress
  /-- The number of the socket in the address of the database is not one. -/
  | badSocket
  deriving DecidableEq, Repr

namespace SqlFault

/-- What a reader of the message is told. -/
def message : SqlFault → String
  | database _ message => "error returned from database: " ++ message
  | closed => "attempted to acquire a connection on a closed pool"
  | noRow => "no rows returned by a query that expected to return at least one row"
  | missingColumn column => "no column found for name: " ++ column
  | nullColumn column =>
    "error occurred while decoding column \"" ++ column ++ "\": unexpected null; try decoding as an `Option`"
  | unreachable => "pool timed out while waiting for an open connection"
  | relativeAddress => "error with configuration: relative URL without a base"
  | badSocket => "error with configuration: invalid port number"

/-- The kind that a code of the database stands for: a value that has to be unique, one that breaks a condition or must
    not be null, or anything else. -/
def kindOf (code : String) : StorageKind :=
  if code = "23505" then .conflict
  else if code = "23514" ∨ code = "23502" then .constraint
  else .storage

/-- The fault as the store tells it, with the name of what it was doing. -/
def storeFault (doing : String) : SqlFault → StoreFault
  | database code message => .reported (kindOf code) ("database error in " ++ doing ++ ": " ++ message)
  | closed => .reported .storage ("connection pool closed in " ++ doing)
  | fault => .reported .storage ("sqlx error in " ++ doing ++ ": " ++ fault.message)

end SqlFault

namespace Row

/-- The value of a column. -/
def value (row : Row) (column : String) : Except SqlFault Value :=
  match row.lookup column with
  | some v => .ok v
  | none => .error (.missingColumn column)

/-- The value of a column that has to be of a kind. -/
def want {α : Type} (row : Row) (column : String) (kind : Value → Option α) : Except SqlFault α := do
  match kind (← row.value column) with
  | some a => .ok a
  | none => .error (.nullColumn column)

/-- The value of a column that has to be of a kind or null. -/
def want? {α : Type} (row : Row) (column : String) (kind : Value → Option α) : Except SqlFault (Option α) := do
  match ← row.value column with
  | .null => .ok none
  | v => match kind v with
    | some a => .ok (some a)
    | none => .error (.nullColumn column)

/-- The row with other values in some columns. -/
def update (row changes : Row) : Row := row.map fun (column, v) => (column, (changes.lookup column).getD v)

end Row

namespace Value

def uuid? : Value → Option Uuid
  | .uuid u => some u
  | _ => none

def text? : Value → Option String
  | .text s => some s
  | _ => none

def bytes? : Value → Option (List UInt8)
  | .bytes bs => some bs
  | _ => none

def int4? : Value → Option Int
  | .int4 n => some n
  | _ => none

def int8? : Value → Option Int
  | .int8 n => some n
  | _ => none

def time? : Value → Option Instant
  | .time t => some t
  | _ => none

/-! ### What is transmitted -/

/-- 1 January 2000, in nanoseconds since 1970: times are transmitted as microseconds since then. -/
def timeOrigin : Int := Instant.startOf ⟨2000, 1, 1⟩ * Span.perSecond

/-- A time as it arrives: in whole microseconds, cut off towards the origin. -/
def transmitTime (t : Instant) : Instant :=
  let distance := t.second * Span.perSecond + t.nano - timeOrigin
  .ofNanos (timeOrigin + distance.tdiv Span.perMicro * Span.perMicro)

/-- A value as it arrives at the other end. -/
def transmit : Value → Value
  | .time t => .time (transmitTime t)
  | v => v

end Value
end Relational
end DurableQueue
