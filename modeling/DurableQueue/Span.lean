import DurableQueue.Text.Number

/-! Lengths of time: never negative and counted in whole nanoseconds without an upper bound. Limits belong to the rules
    that state them. -/

namespace DurableQueue

/-- A length of time. -/
structure Span where
  /-- Its length in nanoseconds. -/
  nanos : Nat
  deriving DecidableEq, Repr

namespace Span

/-- Nanoseconds in a second. -/
def perSecond : Nat := 1000000000

/-- Nanoseconds in a millisecond. -/
def perMilli : Nat := 1000000

/-- Nanoseconds in a microsecond. -/
def perMicro : Nat := 1000

def zero : Span := ⟨0⟩

def ofSeconds (n : Nat) : Span := ⟨n * perSecond⟩

def ofMillis (n : Nat) : Span := ⟨n * perMilli⟩

/-- The longest length that a time is moved by: its milliseconds are a signed number of 64 bits. -/
def longestShift : Span := .ofMillis 9223372036854775807

/-- The whole seconds of a length. -/
def seconds (d : Span) : Nat := d.nanos / perSecond

/-- The nanoseconds beyond the whole seconds. -/
def subsecond (d : Span) : Nat := d.nanos % perSecond

instance : LE Span := ⟨fun a b => a.nanos ≤ b.nanos⟩
instance : LT Span := ⟨fun a b => a.nanos < b.nanos⟩
instance (a b : Span) : Decidable (a ≤ b) := inferInstanceAs (Decidable (a.nanos ≤ b.nanos))
instance (a b : Span) : Decidable (a < b) := inferInstanceAs (Decidable (a.nanos < b.nanos))
instance : Add Span := ⟨fun a b => ⟨a.nanos + b.nanos⟩⟩
instance : Inhabited Span := ⟨zero⟩

/-- A count of a unit that has `10 ^ places` parts: whole units, then the parts without zeros at the end. -/
def inUnit (d : Span) (places : Nat) (unit : String) : String :=
  let parts := Nat.pow 10 places
  let fraction := Text.dropTrailingZeros (Text.padded places (d.nanos % parts))
  toString (d.nanos / parts) ++ (if d.nanos % parts = 0 then "" else "." ++ fraction) ++ unit

/-- A length in the largest unit that leaves a whole number in front of the point. -/
def text (d : Span) : String :=
  if perSecond ≤ d.nanos then d.inUnit 9 "s"
  else if perMilli ≤ d.nanos then d.inUnit 6 "ms"
  else if perMicro ≤ d.nanos then d.inUnit 3 "µs"
  else toString d.nanos ++ "ns"

theorem seconds_ofSeconds (n : Nat) : (ofSeconds n).seconds = n :=
  Nat.mul_div_cancel n (by decide)

theorem nanos_eq (d : Span) : d.nanos = d.seconds * perSecond + d.subsecond := by
  simp only [seconds, subsecond, Nat.mul_comm]
  exact (Nat.div_add_mod _ _).symm

theorem ofSeconds_seconds_le (d : Span) : ofSeconds d.seconds ≤ d := Nat.div_mul_le_self d.nanos perSecond

/-- A length is that of its seconds if it has whole ones. -/
theorem ofSeconds_seconds_iff {d : Span} : ofSeconds d.seconds = d ↔ d.subsecond = 0 := by
  obtain ⟨n⟩ := d
  simp only [ofSeconds, seconds, subsecond, perSecond, mk.injEq]
  omega

end Span
end DurableQueue
