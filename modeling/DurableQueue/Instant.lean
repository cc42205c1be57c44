import DurableQueue.Calendar
import DurableQueue.Span

/-! Points in time on the UTC scale, to the nanosecond. Arithmetic has no bounds; the calendar that times are read from
    and written to ends in the years -262143 and 262142, and `InRange` says which times it holds.

    A leap second is a second too many: it shares the number of the second before it, and its nanoseconds count on
    from 1 000 000 000. Order compares the second and then the nanoseconds, so a leap second comes after the second it
    repeats and before the next one. -/

namespace DurableQueue

/-- A point in time. -/
structure Instant where
  /-- Whole seconds since 1 January 1970, 00:00:00 UTC. -/
  second : Int
  /-- Nanoseconds into that second; from 1 000 000 000 on, into a leap second that follows it. -/
  nano : Nat
  deriving DecidableEq, Repr

namespace Instant

/-- 1 January 1970, 00:00:00 UTC. -/
def epoch : Instant := ⟨0, 0⟩

instance : Inhabited Instant := ⟨epoch⟩

instance : LT Instant := ⟨fun a b => a.second < b.second ∨ a.second = b.second ∧ a.nano < b.nano⟩
instance : LE Instant := ⟨fun a b => ¬b < a⟩
instance (a b : Instant) : Decidable (a < b) :=
  inferInstanceAs (Decidable (a.second < b.second ∨ a.second = b.second ∧ a.nano < b.nano))
instance (a b : Instant) : Decidable (a ≤ b) := inferInstanceAs (Decidable (¬b < a))

theorem lt_def {a b : Instant} : a < b ↔ a.second < b.second ∨ a.second = b.second ∧ a.nano < b.nano := Iff.rfl

theorem le_def {a b : Instant} : a ≤ b ↔ ¬b < a := Iff.rfl

/-- The later of two times. -/
def later (a b : Instant) : Instant := if b < a then a else b

/-- Seconds in a day. -/
def secondsPerDay : Int := 86400

/-- The number of the day on which a time falls. -/
def dayNumber (t : Instant) : Int := t.second / secondsPerDay

/-- The seconds of the day that have passed. -/
def secondOfDay (t : Instant) : Nat := (t.second % secondsPerDay).toNat

/-- The first second of a date. -/
def startOf (d : Date) : Int := d.dayNumber * secondsPerDay

/-- The first second that the calendar holds. -/
def firstSecond : Int := startOf ⟨-262143, 1, 1⟩

/-- The last second that the calendar holds. -/
def lastSecond : Int := startOf ⟨262142, 12, 31⟩ + 86399

/-- Whether the calendar holds the time. -/
def InRange (t : Instant) : Prop := firstSecond ≤ t.second ∧ t.second ≤ lastSecond

instance (t : Instant) : Decidable t.InRange :=
  inferInstanceAs (Decidable (firstSecond ≤ t.second ∧ t.second ≤ lastSecond))

/-- The time so many nanoseconds after the beginning of 1970. -/
def ofNanos (n : Int) : Instant := ⟨n / Span.perSecond, (n % Span.perSecond).toNat⟩

/-- Whether a time lies in a leap second. -/
def isLeap (t : Instant) : Bool := Span.perSecond ≤ t.nano

/-- The nanoseconds into the second, whether it is a leap second or not. -/
def subsecond (t : Instant) : Nat := if t.isLeap then t.nano - Span.perSecond else t.nano

/-- A length of time later. A leap second is left at once: what is added counts from the second that it repeats, unless
    the sum is still within the leap second. -/
def add (t : Instant) (d : Span) : Instant :=
  if t.isLeap ∧ t.nano + d.nanos < 2 * Span.perSecond then { t with nano := t.nano + d.nanos }
  else ofNanos (t.second * Span.perSecond + t.subsecond + d.nanos)

/-- A length of time earlier. Of a leap second less than a second is taken off its own nanoseconds, and more than that
    as if it were the next second. -/
def sub (t : Instant) (d : Span) : Instant :=
  if t.isLeap ∧ d.nanos < Span.perSecond then { t with nano := t.nano - d.nanos }
  else ofNanos (t.second * Span.perSecond + t.nano - d.nanos)

/-- A length of time later, if the calendar still holds that time. -/
def add? (t : Instant) (d : Span) : Option Instant := if (t.add d).InRange then some (t.add d) else none

/-- A length of time earlier, if the calendar still holds that time. -/
def sub? (t : Instant) (d : Span) : Option Instant := if (t.sub d).InRange then some (t.sub d) else none

end Instant
end DurableQueue
