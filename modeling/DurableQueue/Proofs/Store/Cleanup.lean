import DurableQueue.Proofs.Instant.Nanos
import DurableQueue.Proofs.Store.Repetition
import DurableQueue.Proofs.Store.Unfailing

/-! The cleanup of the queue puts back the running tasks that were claimed longer ago than a timeout, and no others. It
    asks the store only if the time before which they must have been claimed can be told and lies in 1970 or later. No task
    has been claimed before 1970, so that where the store is not asked there is nothing to put back. -/

namespace DurableQueue

/-! ### What is overdue -/

/-- The task is running, and was claimed longer ago than the timeout. -/
def Task.Overdue (t : Task) (now : Instant) (timeout : Span) : Prop :=
  t.status = .running ∧ ∃ last, t.lastAttempt = some last ∧ last < now.sub timeout

theorem Task.overdue_iff {t : Task} {now : Instant} {timeout : Span} :
    t.isStuck (now.sub timeout) = true ↔ t.Overdue now timeout := Task.isStuck_iff

instance (t : Task) (now : Instant) (timeout : Span) : Decidable (t.Overdue now timeout) :=
  decidable_of_iff (t.isStuck (now.sub timeout) = true) Task.overdue_iff

/-- No running task among them was claimed before 1970. -/
def ClaimedSinceEpoch (tasks : List Task) : Prop :=
  ∀ t ∈ tasks, t.status = .running → ∀ last ∈ t.lastAttempt, .epoch ≤ last

instance (tasks : List Task) : Decidable (ClaimedSinceEpoch tasks) :=
  inferInstanceAs (Decidable (∀ t ∈ tasks, t.status = .running → ∀ last ∈ t.lastAttempt, .epoch ≤ last))

variable {now : Instant} {timeout : Span}

namespace Queue

/-- No time of the calendar can be moved back by more than the longest length and stay in 1970 or later. -/
theorem not_epoch_le_of_longestShift_lt (here : now.InRange) (single : now.nano < 2 * Span.perSecond)
    (long : Span.longestShift < timeout) : ¬.epoch ≤ now.sub timeout := by
  have calendar : (Instant.lastSecond + 2) * Span.perSecond ≤ Span.longestShift.nanos := by decide
  have length : Span.longestShift.nanos < timeout.nanos := long
  have last := here.2
  have moved := Instant.nanos_sub now timeout
  rw [Instant.le_def, not_not, Instant.lt_epoch_iff]
  simp only [Instant.nanos, Span.perSecond] at calendar moved single
  omega

theorem cutoff?_eq (here : now.InRange) (single : now.nano < 2 * Span.perSecond) (timeout : Span) :
    cutoff? now timeout = if .epoch ≤ now.sub timeout then some (now.sub timeout) else none := by
  -- A timeout can be too long to be taken off, or lead out of the calendar: both are further back than 1970.
  unfold cutoff?
  split
  · next long => rw [if_neg (not_epoch_le_of_longestShift_lt here single long)]
  · split
    · next since => simp [Instant.sub?, Instant.inRange_sub here single since, Option.filter, since]
    · next before =>
      unfold Instant.sub?
      split
      · simp [Option.filter, before]
      · rfl

end Queue

namespace Store
open StoreM

variable {s : Store}

/-! ### Rows -/

/-- Where nothing is stuck a pass changes nothing. -/
theorem mapRows_freed {olderThan : Instant} (none : ∀ t ∈ s.tasks.rows, ¬t.isStuck olderThan = true) :
    s.tasks.mapRows (freed olderThan now) (freed_id olderThan now) = s.tasks := by
  have same : ∀ t ∈ s.tasks.rows, freed olderThan now t = t := fun t ht => if_neg (none t ht)
  exact Table.ext ((List.map_congr_left same).trans (List.map_id _))

theorem not_overdue_of_claimedSinceEpoch {tasks : List Task} (since : ClaimedSinceEpoch tasks)
    (before : ¬.epoch ≤ now.sub timeout) : ∀ t ∈ tasks, ¬t.Overdue now timeout := by
  rintro t ht ⟨running, last, claimed, old⟩
  exact before (Std.le_of_lt (Std.lt_of_le_of_lt (since t ht running last claimed) old))

theorem not_isStuck_freed (olderThan now : Instant) (t : Task) : ¬(freed olderThan now t).isStuck olderThan = true := by
  unfold freed
  split
  · simp [Task.isStuck]
  · next kept => exact kept

/-! ### Cleaning up -/

/-- Cleans up through the queue. -/
def cleanup (now : Instant) (timeout : Span) : StateM Store (Outcome QueueFault Nat) :=
  Queue.cleanup (fun olderThan now => (resetStuck olderThan now).run) now timeout

theorem cleanup_apply (here : now.InRange) (single : now.nano < 2 * Span.perSecond) (timeout : Span) (s : Store) :
    cleanup now timeout s =
      if .epoch ≤ now.sub timeout then
        if s.poisoned then (.error (.refused (.store .poisoned)), s)
        else (.ok (s.tasks.rows.countP (·.isStuck (now.sub timeout))),
          { s with tasks := s.tasks.mapRows (freed (now.sub timeout) now) (freed_id (now.sub timeout) now) })
      else (.ok 0, s) := by
  unfold cleanup Queue.cleanup
  rw [Queue.cutoff?_eq here single]
  split
  · show ((resetStuck (now.sub timeout) now s).1.mapError (·.map QueueFault.store),
      (resetStuck (now.sub timeout) now s).2) = _
    rw [resetStuck_apply]
    split <;> rfl
  · rfl

/-- The answer and the rows of an open store are as if it were asked in every case. -/
theorem cleanup_open (here : now.InRange) (single : now.nano < 2 * Span.perSecond) (isOpen : s.poisoned = false)
    (since : ClaimedSinceEpoch s.tasks.rows) :
    cleanup now timeout s = (.ok (s.tasks.rows.countP (·.Overdue now timeout)),
      { s with tasks := s.tasks.mapRows (freed (now.sub timeout) now) (freed_id (now.sub timeout) now) }) := by
  have counted : s.tasks.rows.countP (·.isStuck (now.sub timeout)) = s.tasks.rows.countP (·.Overdue now timeout) :=
    List.countP_congr fun t _ => by rw [Task.overdue_iff, decide_eq_true_eq]
  rw [cleanup_apply here single, ← counted]
  split
  · rw [if_neg (Bool.eq_false_iff.mp isOpen)]
  · next before =>
    have none : ∀ t ∈ s.tasks.rows, ¬t.isStuck (now.sub timeout) = true := fun t ht =>
      mt Task.overdue_iff.mp (not_overdue_of_claimedSinceEpoch since before t ht)
    rw [mapRows_freed none, List.countP_eq_zero.mpr none]

theorem cleanup_idle (here : now.InRange) (single : now.nano < 2 * Span.perSecond) (isOpen : s.poisoned = false)
    (none : ∀ t ∈ s.tasks.rows, ¬t.isStuck (now.sub timeout) = true) : cleanup now timeout s = (.ok 0, s) := by
  rw [cleanup_apply here single, mapRows_freed none, List.countP_eq_zero.mpr none, if_neg (Bool.eq_false_iff.mp isOpen),
    ite_self]

/-- A cleanup counts the overdue tasks and makes them pending again, and leaves all else as it is, however long the timeout
    is; a second one at the same time has nothing to do, in whatever order the store gives out its rows. A poisoned store
    refuses, where it is asked at all. -/
theorem cleanup_exact (s : Store) (now : Instant) (timeout : Span) (here : now.InRange)
    (single : now.nano < 2 * Span.perSecond) (since : ClaimedSinceEpoch s.tasks.rows) :
    (s.poisoned = false → ∃ s', cleanup now timeout s = (.ok (s.tasks.rows.countP (·.Overdue now timeout)), s') ∧
      (∀ id, s'.tasks.get? id = (s.tasks.get? id).map fun t =>
        if t.Overdue now timeout then { t with status := .pending, runAfter := t.runAfter.later now, updatedAt := now }
        else t) ∧
      s'.jobs = s.jobs ∧ s'.poisoned = false ∧
      ∀ found, Reordered s' found → cleanup now timeout found = (.ok 0, found)) ∧
    (s.poisoned = true → cleanup now timeout s =
      (if .epoch ≤ now.sub timeout then .error (.refused (.store .poisoned)) else .ok 0, s)) ∧
    (now.sub timeout).nanos = now.nanos - timeout.nanos ∧
    ∀ last : Instant, last.isLeap = false → now.isLeap = false →
      (last < now.sub timeout ↔ last.nanos < now.nanos - timeout.nanos) := by
  refine ⟨fun isOpen => ⟨_, cleanup_open here single isOpen since, fun id => ?_, rfl, isOpen, fun found order => ?_⟩,
    fun poisoned => ?_, Instant.nanos_sub now timeout, fun last plain plain' => ?_⟩
  · rw [Table.get?_mapRows]
    refine congrArg (Option.map · (s.tasks.get? id)) (funext fun t => ?_)
    simp only [freed, Task.overdue_iff]
  · -- What was put back is not running, so it is not overdue once more.
    refine cleanup_idle here single (order.poisoned.trans isOpen) fun t ht => ?_
    obtain ⟨u, -, rfl⟩ := List.mem_map.mp (order.tasks.mem_iff.mp ht)
    exact not_isStuck_freed _ _ u
  · rw [cleanup_apply here single, if_pos poisoned]
    split <;> rfl
  · rw [Instant.lt_iff_nanos_lt plain (Instant.isLeap_sub plain' timeout), Instant.nanos_sub]

theorem cleanup_exact_retried :
    (∃ s', cleanup ⟨100, 0⟩ (.ofSeconds 10) (Call.afterAll Call.retried {}) = (.ok 1, s') ∧
      cleanup ⟨100, 0⟩ (.ofSeconds 10) s' = (.ok 0, s')) ∧
    (cleanup ⟨100, 0⟩ (.ofSeconds 10) (Call.afterAll Call.crashed {})).1 = .error (.refused (.store .poisoned)) := by
  have one : (Call.afterAll Call.retried {}).tasks.rows.countP (·.Overdue ⟨100, 0⟩ (.ofSeconds 10)) = 1 := by
    decide +kernel
  have retried := cleanup_exact (Call.afterAll Call.retried {}) ⟨100, 0⟩ (.ofSeconds 10) (by decide) (by decide)
    (by decide +kernel)
  have crashed := cleanup_exact (Call.afterAll Call.crashed {}) ⟨100, 0⟩ (.ofSeconds 10) (by decide) (by decide)
    (by decide +kernel)
  obtain ⟨s', answer, -, -, -, again⟩ := retried.1 (by decide)
  refine ⟨⟨s', one ▸ answer, again s' (.refl s')⟩, ?_⟩
  rw [crashed.2.1 (by decide)]
  rfl

/-- After a crash the lock refuses a cleanup, although no running task was claimed before 1970. -/
theorem cleanup_refused_crashed :
    ∃ es s, Run {} es s ∧ ClaimedSinceEpoch s.tasks.rows ∧
      (cleanup ⟨100, 0⟩ (.ofSeconds 10) s).1 = .error (.refused (.store .poisoned)) :=
  ⟨_, _, Run.of_calls Call.crashed {}, by decide +kernel, by decide +kernel⟩

end Store
end DurableQueue
