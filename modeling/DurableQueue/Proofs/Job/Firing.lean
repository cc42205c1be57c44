import DurableQueue.Proofs.Instant.Nanos
import DurableQueue.Proofs.Job.Transition

/-! A job fires as a whole or not at all. All that can refuse a fire is looked at before the job is written: whether it
    is due, and the time from which its task may run. So a job whose fire is refused is left as it was, and one that fires
    has moved on completely; it is not due any more, whether its schedule goes on or has come to its end. -/

namespace DurableQueue

/-! ### Delays -/

theorem Instant.delayed_eq_ok {now : Instant} {delay : Span} (here : now.InRange) (short : delay ≤ longestDelay)
    (inside : (now.add delay).second ≤ lastSecond) : now.delayed delay = .ok (now.add delay) := by
  have within : ¬longestDelay < delay := Nat.not_lt.mpr short
  have held : (now.add delay).InRange := ⟨Int.le_trans here.1 (second_le_add now delay), inside⟩
  rw [delayed, if_neg within, add?, if_pos held]

theorem Instant.of_delayed {now t : Instant} {delay : Span} (delayed : now.delayed delay = .ok t) :
    delay ≤ longestDelay ∧ (now.add delay).second ≤ lastSecond ∧ now.add delay = t := by
  unfold Instant.delayed at delayed
  split at delayed
  · cases delayed
  · next short =>
    cases sum : now.add? delay with
    | none =>
      rw [sum] at delayed
      cases delayed
    | some u =>
      rw [sum] at delayed
      cases delayed
      obtain ⟨held, same⟩ := add?_eq_some_iff.mp sum
      exact ⟨Nat.not_lt.mp short, held.2, same⟩

theorem Instant.delayed_eq_error {now : Instant} {delay : Span}
    (beyond : longestDelay < delay ∨ lastSecond < (now.add delay).second) : ∃ cause, now.delayed delay = .error cause := by
  unfold delayed
  split
  · exact ⟨_, rfl⟩
  · next short =>
    have outside : ¬(now.add delay).InRange := fun held => Int.not_lt.mpr held.2 (beyond.resolve_left short)
    rw [add?, if_neg outside]
    exact ⟨_, rfl⟩

namespace Job

variable {job : Job} {id : TaskId} {now : Instant} {maxAttempts : Nat} {next : Option Instant}

/-! ### Refusals -/

theorem fireInPlace_not_due (rest : job.isDue now = false) :
    fireInPlace id now maxAttempts job = (.error (.refused (.jobNotDue job.name)), job) := by
  rw [fireInPlace_apply, if_neg (Bool.eq_false_iff.mp rest)]

theorem fireInPlace_not_delayed {cause : Refusal} (due : job.isDue now = true)
    (beyond : now.delayed job.delay = .error cause) :
    fireInPlace id now maxAttempts job = (.error (.refused cause), job) := by
  rw [fireInPlace_apply, if_pos due, beyond]

/-! ### Fires -/

theorem fireInPlace_fires {runAfter : Instant} (due : job.isDue now = true)
    (delayed : now.delayed job.delay = .ok runAfter)
    (found : (job.expression.next now : Outcome Refusal (Option Instant)) = .ok next) :
    fireInPlace id now maxAttempts job =
      (.ok ⟨.create id ⟨job.subject, job.payload, some runAfter, maxAttempts⟩ now, next.isNone⟩, job.advance next now) := by
  rw [fireInPlace_apply, if_pos due, delayed, found]

/-- Where the search for the next time ends, a fire is refused and leaves the job as it was exactly if the job is not
    active, its time has not come, its delay is too long, or the calendar ends before its task may run. Any other fire
    makes a new task of what the job holds, which may run the delay after now, and moves the job on to the next time of its
    schedule, or disables it if there is none. Then the job is not due, neither now nor at any time before. -/
theorem fireInPlace_exact (job : Job) (id : TaskId) {now : Instant} (maxAttempts : Nat) {next : Option Instant}
    (here : now.InRange) (found : (job.expression.next now : Outcome Refusal (Option Instant)) = .ok next) :
    ((∃ cause, fireInPlace id now maxAttempts job = (.error (.refused cause), job)) ↔
      job.status ≠ .active ∨ now < job.nextRunAt ∨ longestDelay < job.delay ∨
        Instant.lastSecond < (now.add job.delay).second) ∧
    (job.status = .active → job.nextRunAt ≤ now → job.delay ≤ longestDelay →
      (now.add job.delay).second ≤ Instant.lastSecond →
      ∃ made after, fireInPlace id now maxAttempts job = (.ok made, after) ∧
        made.task = {
          id := id
          subject := job.subject
          status := .pending
          runAfter := now.add job.delay
          payload := job.payload
          maxAttempts := maxAttempts
          attempts := 0
          lastError := none
          lastAttempt := none
          createdAt := now
          updatedAt := now } ∧
        (now.isLeap = false → made.task.runAfter.nanos = now.nanos + job.delay.nanos) ∧
        after = { job with
          status := after.status
          nextRunAt := next.getD job.nextRunAt
          lastRunAt := some now
          updatedAt := now } ∧
        (after.status = .disabled ↔ next = none) ∧ (made.exhausted = true ↔ next = none) ∧
        (∀ later, next = some later → now < later) ∧ ∀ t, t ≤ now → after.isDue t = false) := by
  have fires (active : job.status = .active) (arrived : job.nextRunAt ≤ now) (short : job.delay ≤ longestDelay)
      (inside : (now.add job.delay).second ≤ Instant.lastSecond) := @fireInPlace_fires job id now maxAttempts next _
    (isDue_iff.mpr ⟨active, arrived⟩) (Instant.delayed_eq_ok here short inside) found
  have ahead : ∀ later, next = some later → now < later := by
    rintro later rfl
    exact Expression.lt_of_next found
  refine ⟨⟨?_, ?_⟩, fun active arrived short inside => ⟨_, _, fires active arrived short inside, rfl,
    fun plain => Instant.nanos_add plain job.delay, rfl, ?_, Option.isNone_iff_eq_none, ahead,
    fun t le => not_isDue_advance ahead le⟩⟩
  · rintro ⟨cause, refused⟩
    refine Decidable.byContradiction fun free => ?_
    simp only [not_or, Decidable.not_not, Std.not_lt] at free
    obtain ⟨active, arrived, short, inside⟩ := free
    cases refused.symm.trans (fires active arrived (Nat.not_lt.mp short) inside)
  · intro blocked
    cases due : job.isDue now with
    | false => exact ⟨_, fireInPlace_not_due due⟩
    | true =>
      obtain ⟨active, arrived⟩ := isDue_iff.mp due
      have beyond : longestDelay < job.delay ∨ Instant.lastSecond < (now.add job.delay).second :=
        (blocked.resolve_left (not_not_intro active)).resolve_left (Std.not_lt.mpr arrived)
      obtain ⟨cause, refused⟩ := Instant.delayed_eq_error beyond
      exact ⟨cause, fireInPlace_not_delayed due refused⟩
  · cases next with
    | none => exact ⟨fun _ => rfl, fun _ => rfl⟩
    | some later => simp [advance, active]

/-- A job that fires every minute, and whose tasks may run ten seconds later. -/
def minutely : Job where
  id := .made 0
  name := "a"
  expression := .everyMinute
  status := .active
  subject := "a"
  payload := []
  delay := .ofSeconds 10
  nextRunAt := ⟨60, 0⟩
  lastRunAt := none
  createdAt := .epoch
  updatedAt := .epoch

/-- The job goes on; in the year 2101 its schedule has come to its end; five seconds before the calendar ends its task
    could not run any more. -/
theorem fireInPlace_exact_minutely :
    (∃ made after, fireInPlace (.made 0) ⟨60, 0⟩ 3 minutely = (.ok made, after) ∧
      made.task.runAfter.nanos = 70 * Span.perSecond ∧ after.status ≠ .disabled ∧ after.isDue ⟨60, 0⟩ = false) ∧
    (∃ made after, fireInPlace (.made 0) ⟨4133980800, 0⟩ 3 minutely = (.ok made, after) ∧
      after.status = .disabled ∧ after.isDue ⟨4133980800, 0⟩ = false) ∧
    ∃ cause, fireInPlace (.made 0) ⟨Instant.lastSecond - 5, 0⟩ 3 minutely = (.error (.refused cause), minutely) := by
  have found (t : Instant) (inside : (t.add? (.ofSeconds 1)).isSome = true) :
      (minutely.expression.next t : Outcome Refusal (Option Instant)) = .ok (minutely.expression.schedule.next? t) :=
    Expression.next_eq_ok.mpr ⟨inside, rfl⟩
  have first := fireInPlace_exact minutely (.made 0) 3 (by decide) (found ⟨60, 0⟩ (by decide))
  have last := fireInPlace_exact minutely (.made 0) 3 (by decide) (found ⟨4133980800, 0⟩ (by decide))
  have late := fireInPlace_exact minutely (.made 0) 3 (by decide) (found ⟨Instant.lastSecond - 5, 0⟩ (by decide))
  obtain ⟨made, after, fired, -, sum, -, disabled, -, -, rests⟩ := first.2 rfl (by decide) (by decide) (by decide)
  obtain ⟨made', after', fired', -, -, -, disabled', -, -, rests'⟩ := last.2 rfl (by decide) (by decide) (by decide)
  exact ⟨⟨made, after, fired, sum rfl, mt disabled.mp (by decide), rests _ (Std.le_refl _)⟩,
    ⟨made', after', fired', disabled'.mpr (by decide), rests' _ (Std.le_refl _)⟩,
    late.1.mpr (Or.inr (Or.inr (Or.inr (by decide))))⟩

end Job
end DurableQueue
