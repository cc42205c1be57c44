import DurableQueue.Instant
import DurableQueue.Text.Blank
import DurableQueue.Text.Number

/-! Reading a time in a relaxed form of RFC 3339. Beyond the standard form it takes white space between the parts, one
    digit for month, day, hour, minute and second, a year with a sign and any number of digits, a blank for the `T`, any
    number of digits of a fraction, of which the first nine count, and `UTC` for the `Z`. The time is turned to UTC, and
    the second numbered 60 is a leap second.

    A text is read from left to right, and the first part that cannot be read gives the fault. -/

namespace DurableQueue
namespace Instant

/-- Why a text is not a time. -/
inductive ReadFault where
  | invalid
  | tooShort
  | outOfRange
  | impossible
  | trailing
  deriving DecidableEq, Repr

/-- What a reader of the message is told. -/
def ReadFault.message : ReadFault → String
  | .invalid => "input contains invalid characters"
  | .tooShort => "premature end of input"
  | .outOfRange => "input is out of range"
  | .impossible => "no possible date and time matching input"
  | .trailing => "trailing input"

/-- A reader of one part: what it read, and the rest of the text. -/
abbrev Scan (α : Type) := List Char → Except ReadFault (α × List Char)

/-- One to `most` digits, as a number. -/
def scanDigits (most : Nat) : Scan Nat := fun cs =>
  match cs with
  | [] => .error .tooShort
  | c :: _ =>
    if c.isDigit then
      let digits := (cs.take most).takeWhile Char.isDigit
      .ok (Text.decimalValue digits, cs.drop digits.length)
    else .error .invalid

/-- A number of at most two digits between two bounds, after white space. -/
def scanPart (least greatest : Nat) : Scan Nat := fun cs => do
  let (n, rest) ← scanDigits 2 (Text.dropBlanks cs)
  if least ≤ n ∧ n ≤ greatest then .ok (n, rest) else .error .outOfRange

/-- A year that fits into 32 bits: a sign and any number of digits, or up to four digits. -/
def scanYear : Scan Int := fun cs => do
  let cs := Text.dropBlanks cs
  let (year, rest) ← (match cs with
    | '-' :: digits => (scanDigits digits.length digits).map fun (n, rest) => (-(n : Int), rest)
    | '+' :: digits => (scanDigits digits.length digits).map fun (n, rest) => ((n : Int), rest)
    | _ => (scanDigits 4 cs).map fun (n, rest) => ((n : Int), rest))
  if -2147483648 ≤ year ∧ year < 2147483648 then .ok (year, rest) else .error .outOfRange

/-- The given character, after white space. -/
def scanMark (mark : Char) : Scan Unit := fun cs =>
  match Text.dropBlanks cs with
  | [] => .error .tooShort
  | c :: rest => if c = mark then .ok ((), rest) else .error .invalid

/-- The separator of date and time of day. -/
def scanSeparator : Scan Unit
  | [] => .error .tooShort
  | c :: rest => if c = 't' ∨ c = 'T' ∨ c = ' ' then .ok ((), rest) else .error .invalid

/-- A point and a fraction of a second, in nanoseconds, if there is a point. -/
def scanFraction : Scan Nat
  | '.' :: cs => do
    let (n, rest) ← scanDigits 9 cs
    let read := cs.length - rest.length
    .ok (n * Nat.pow 10 (9 - read), rest.dropWhile Char.isDigit)
  | cs => .ok (0, cs)

/-- Two digits of an offset. A last character that fills the place of two is a wrong one. -/
def scanTwoDigits : Scan Nat
  | [] => .error .tooShort
  | [c] => if c.utf8Size = 1 then .error .tooShort else .error .invalid
  | a :: b :: rest =>
    if a.isDigit ∧ b.isDigit then .ok (Text.digitValue a * 10 + Text.digitValue b, rest) else .error .invalid

/-- The minutes of an offset: two digits, of which the first is below 6. -/
def scanOffsetMinutes : Scan Nat := fun cs => do
  let (minutes, rest) ← scanTwoDigits cs
  if minutes < 60 then .ok (minutes, rest) else .error .outOfRange

/-- Hours and minutes of an offset, which colons and white space may separate, in seconds. -/
def scanOffsetClock : Scan Int := fun cs => do
  let (hours, rest) ← scanTwoDigits cs
  let (minutes, rest) ← scanOffsetMinutes (rest.dropWhile fun c => c = ':' || Text.isBlank c)
  .ok (hours * 3600 + minutes * 60, rest)

/-- The offset from UTC in seconds. -/
def scanOffset : Scan Int := fun cs =>
  if (cs.take 3).map Char.toLower = ['u', 't', 'c'] then .ok (0, cs.drop 3)
  else match cs with
    | [] => .error .tooShort
    | c :: rest =>
      if c = 'z' ∨ c = 'Z' then .ok (0, rest)
      else if c = '+' then scanOffsetClock rest
      else if c = '-' ∨ c = '−' then (scanOffsetClock rest).map fun (offset, rest) => (-offset, rest)
      else .error .invalid

/-- The time that a date, a time of day and an offset name. -/
def assemble (date : Date) (hour minute second nano : Nat) (offset : Int) : Except ReadFault Instant :=
  let day : Instant := ⟨startOf date, 0⟩
  if !date.exists? ∨ ¬day.InRange ∨ ¬(-secondsPerDay < offset ∧ offset < secondsPerDay) then .error .outOfRange
  else
    let leap := second = 60
    let passed := hour * 3600 + minute * 60 + (if leap then 59 else second)
    let t : Instant := ⟨day.second + passed - offset, nano + (if leap then Span.perSecond else 0)⟩
    if t.InRange then .ok t else .error .impossible

/-- Reads a time. -/
def read (s : String) : Except ReadFault Instant := do
  let (year, cs) ← scanYear s.toList
  let ((), cs) ← scanMark '-' cs
  let (month, cs) ← scanPart 1 12 cs
  let ((), cs) ← scanMark '-' cs
  let (day, cs) ← scanPart 1 31 cs
  let ((), cs) ← scanSeparator cs
  let (hour, cs) ← scanPart 0 23 cs
  let ((), cs) ← scanMark ':' cs
  let (minute, cs) ← scanPart 0 59 cs
  let ((), cs) ← scanMark ':' cs
  let (second, cs) ← scanPart 0 60 cs
  let (nano, cs) ← scanFraction cs
  let (offset, cs) ← scanOffset (Text.dropBlanks cs)
  if Text.dropBlanks cs = [] then assemble ⟨year, month, day⟩ hour minute second nano offset else .error .trailing

end Instant
end DurableQueue
