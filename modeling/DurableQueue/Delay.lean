import DurableQueue.Outcome
import DurableQueue.Refusal

/-! Delays: when a delayed task may run, and how long a failed one waits for its next attempt. -/

namespace DurableQueue

/-- A time that lies a delay after another one: refused if the delay is too long or leaves the calendar. -/
def Instant.delayed (start : Instant) (delay : Span) : Except Refusal Instant :=
  if longestDelay < delay then .error (.delayTooLong delay)
  else match start.add? delay with
    | some t => .ok t
    | none => .error (.delayOutOfRange start delay)

/-- The factor at an attempt: it doubles each time and stays at the greatest number of 32 bits when that is passed. -/
def retryFactor (attempts : Nat) : Nat := if attempts < 32 then Nat.pow 2 attempts else counterBound - 1

/-- How long a task waits after its given number of failed attempts: twice as long each time, up to a cap. -/
def backoff (attempts : Nat) : Span := ⟨min (retryBase.nanos * retryFactor attempts) retryCap.nanos⟩

theorem retryFactor_large {attempts : Nat} (h : 6 ≤ attempts) : 60 ≤ retryFactor attempts := by
  unfold retryFactor
  split
  · calc 60 ≤ Nat.pow 2 6 := by decide
      _ ≤ Nat.pow 2 attempts := Nat.pow_le_pow_right (by decide) h
  · decide

/-- The doubling has no end: where the factor stops growing, the cap has long been reached. -/
theorem backoff_eq (attempts : Nat) :
    backoff attempts = ⟨min (retryBase.nanos * Nat.pow 2 attempts) retryCap.nanos⟩ := by
  unfold backoff
  by_cases h : attempts < 32
  · simp [retryFactor, h]
  · have small : 60 ≤ retryFactor attempts := retryFactor_large (by omega)
    have large : 60 ≤ Nat.pow 2 attempts :=
      calc 60 ≤ Nat.pow 2 6 := by decide
        _ ≤ Nat.pow 2 attempts := Nat.pow_le_pow_right (by decide) (by omega)
    have cap : retryCap.nanos = retryBase.nanos * 60 := by decide
    rw [cap, Nat.min_eq_right (Nat.mul_le_mul_left _ small), Nat.min_eq_right (Nat.mul_le_mul_left _ large)]

end DurableQueue
