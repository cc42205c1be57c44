import DurableQueue.Instant

/-! How a time is written: as RFC 3339 in records, and with blanks in messages. Both give the year four digits, with a
    sign where it is below 0 or above 9999, and the fraction of a second no digits or 3, 6 or 9 of them, as few as show
    it exactly. -/

namespace DurableQueue
namespace Instant

/-- A year: four digits, or a sign and at least four digits. -/
def yearText (year : Int) : String :=
  if year < 0 then "-" ++ Text.padded 4 year.natAbs
  else if year ≤ 9999 then Text.padded 4 year.toNat
  else "+" ++ Text.padded 4 year.toNat

/-- The fraction of a second with its point, in the fewest of 0, 3, 6 or 9 digits. -/
def fractionText (nano : Nat) : String :=
  if nano = 0 then ""
  else if nano % Span.perMilli = 0 then "." ++ Text.padded 3 (nano / Span.perMilli)
  else if nano % Span.perMicro = 0 then "." ++ Text.padded 6 (nano / Span.perMicro)
  else "." ++ Text.padded 9 nano

/-- A date, largest unit first. -/
def dateText (d : Date) : String :=
  yearText d.year ++ "-" ++ Text.padded 2 d.month ++ "-" ++ Text.padded 2 d.day

/-- The time of day; a leap second has the number after that of the second it repeats. -/
def clockText (t : Instant) : String :=
  let passed := t.secondOfDay
  let second := passed % 60 + (if t.isLeap then 1 else 0)
  Text.padded 2 (passed / 3600) ++ ":" ++ Text.padded 2 (passed / 60 % 60) ++ ":" ++ Text.padded 2 second ++
    fractionText t.subsecond

/-- A time in the form of RFC 3339, in UTC. -/
def rfc3339 (t : Instant) : String := dateText (.ofDayNumber t.dayNumber) ++ "T" ++ t.clockText ++ "Z"

/-- A time as messages show it. -/
def text (t : Instant) : String := dateText (.ofDayNumber t.dayNumber) ++ " " ++ t.clockText ++ " UTC"

end Instant
end DurableQueue
