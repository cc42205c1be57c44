import DurableQueue.Span

/-! The numbers of the queue: how long a delay may be, how retries are spaced, and how often a task is tried. -/

namespace DurableQueue

/-- The longest delay that a task may be given: ten years of 365 days. -/
def longestDelay : Span := .ofSeconds (10 * 365 * 24 * 60 * 60)

/-- The delay that the spacing of retries starts from. -/
def retryBase : Span := .ofSeconds 10

/-- The longest delay before a retry. -/
def retryCap : Span := .ofSeconds 600

/-- The delay after a task has been put back without counting a failure. -/
def requeueDelay : Span := .ofSeconds 10

/-- The attempts that a task is given when its producer does not choose. -/
def defaultMaxAttempts : Nat := 3

/-- Counters of attempts have 32 bits: they are below this number. -/
def counterBound : Nat := 4294967296

/-- Counts of rows and of milliseconds have 64 bits: they are below this number. -/
def wordBound : Nat := 18446744073709551616

end DurableQueue
