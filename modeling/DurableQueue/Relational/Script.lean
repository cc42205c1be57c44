import DurableQueue.Relational.Statement

/-! A database that knows no statements and answers from a script. It transmits values as a real one does, and it keeps
    what it has been told. -/

namespace DurableQueue
namespace Relational

/-- A database that answers from a script. -/
structure Script where
  /-- The answers to come. A row need not have all columns; the others are null. -/
  replies : List Reply := []
  /-- Why the database lets nobody in, if so. -/
  connectFault : Option SqlFault := none
  /-- Why no transaction can be opened, if so. -/
  beginFault : Option SqlFault := none
  /-- Why no transaction can be closed, if so. -/
  commitFault : Option SqlFault := none
  /-- Columns that no answer has. -/
  omitted : List String := []
  /-- The connections have been given up. -/
  closed : Bool := false
  /-- What the database has been told, oldest first. -/
  told : List Statement := []

namespace Script

/-- A row with all columns of an answer, as it arrives. -/
def complete (omitted columns : List String) (row : Row) : Row :=
  (columns.filter fun column => !omitted.contains column).map fun column =>
    (column, ((row.lookup column).getD .null).transmit)

/-- The answer to a statement that has been noted. -/
def control (fault : Option SqlFault) : Reply :=
  match fault with
  | some f => .error f
  | none => .ok ⟨[], 0⟩

/-- Answers a statement. -/
def answer (db : Script) (s : Statement) : Reply × Script :=
  if db.closed then (.error .closed, db)
  else
    let noted := { db with told := db.told ++ [s] }
    match s with
    | .begin => (control db.beginFault, noted)
    | .commit => (control db.commitFault, noted)
    | .rollback => (control none, noted)
    | _ =>
      match db.replies with
      | [] => (.ok ⟨[], 0⟩, noted)
      | reply :: rest =>
        let completed := reply.map fun a => { a with rows := a.rows.map (complete db.omitted s.columns) }
        (completed, { noted with replies := rest })

/-- What the database has been told: statements, and their values as they have arrived. Taking back a transaction is not
    noted. -/
def heard (db : Script) : List (Statement × List Value) :=
  (db.told.filter (· ≠ .rollback)).map fun s => (s, s.values.map Value.transmit)

end Script

/-- The answer of a call, and the database afterwards. -/
def Session.converse {α : Type} (call : Session α) (db : Script) : Except (Halt StoreFault) α × Script :=
  call.run.run Script.answer db

/-! ### Addresses -/

/-- Whether characters begin with a scheme and a colon. -/
def hasScheme : List Char → Bool
  | [] => false
  | c :: cs =>
    let rest := cs.dropWhile fun c => c.isAlphanum || c = '+' || c = '-' || c = '.'
    c.isAlpha && rest.head? = some ':'

/-- What follows the last place of a character, or all if there is none. -/
def afterLast (mark : Char) (cs : List Char) : List Char := (cs.reverse.takeWhile (· ≠ mark)).reverse

/-- The characters of an address between the two slashes and the next slash, without a user. -/
def hostPart (cs : List Char) : List Char :=
  match (cs.dropWhile (· ≠ ':')).drop 1 with
  | '/' :: '/' :: rest => afterLast '@' (rest.takeWhile fun c => c ≠ '/' && c ≠ '?' && c ≠ '#')
  | _ => []

/-- Whether the number of the socket behind a host is one of 16 bits, if there is one. -/
def socketIsGood (host : List Char) : Bool :=
  let named := if host.contains ']' then afterLast ']' host else host
  if named.contains ':' then
    let number := afterLast ':' named
    number.all Char.isDigit && Text.decimalValue number < 65536
  else true

/-- Refuses the address of a database that has no scheme or a wrong number of a socket. White space in front does not
    count. -/
def checkAddress (address : String) : Except SqlFault Unit :=
  let cs := address.toList.dropWhile (· ≤ ' ')
  if !hasScheme cs then .error .relativeAddress
  else if !socketIsGood (hostPart cs) then .error .badSocket
  else .ok ()

/-- Connects to a database at an address, with at most so many connections at a time. `fault` is why the database lets
    nobody in, if so. -/
def connect (address : String) (connections : Nat) (fault : Option SqlFault) : Except StoreFault Unit :=
  let answer : Except SqlFault Unit := do
    checkAddress address
    if connections = 0 then .error .unreachable
    match fault with
    | some f => .error f
    | none => .ok ()
  answer.mapError (·.storeFault "connect")

end Relational
end DurableQueue
