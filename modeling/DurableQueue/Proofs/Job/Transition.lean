import DurableQueue.Job
import DurableQueue.Proofs.Schedule.Next

/-! What happens to a cron job: how it is made, what a new definition changes in it, when it fires, how it moves on then,
    and which task it makes. -/

namespace DurableQueue

/-- The definition of a job whose tasks have no payload and may run at once. -/
def JobSpec.plain (name : String) (expression : Expression) : JobSpec := ⟨name, expression, .active, "a", [], .zero⟩

/-- A definition is checked for what the tasks of its job need. -/
theorem JobSpec.of_validate {spec : JobSpec} (h : spec.validate = .ok ()) :
    spec.subject ≠ "" ∧ spec.delay ≤ longestDelay := by
  unfold JobSpec.validate Subject.validate at h
  split at h
  · cases h
  · split at h
    · cases h
    · next short =>
      refine ⟨fun blank => ?_, Nat.not_lt.mp short⟩
      rw [if_pos blank] at h
      cases h

namespace Job

/-! ### Definitions -/

section
variable {id : JobId} {job made other : Job} {spec first : JobSpec} {now : Instant}

theorem statusFor_eq_active {wanted : JobStatus} {next : Option Instant} :
    statusFor wanted next = .active ↔ wanted = .active ∧ next.isSome = true := by
  unfold statusFor
  split <;> simp_all

/-- A new job waits for the first time of its schedule, or is disabled and has a time of its own in that place. -/
theorem create_eq_ok : Job.create id spec now = .ok made ↔
    ∃ next, (spec.expression.next now : Outcome Refusal (Option Instant)) = .ok next ∧ made = {
      id := id
      name := spec.name
      expression := spec.expression
      status := statusFor spec.status next
      subject := spec.subject
      payload := spec.payload
      delay := spec.delay
      nextRunAt := next.getD now
      lastRunAt := none
      createdAt := now
      updatedAt := now } := by
  unfold create
  cases h : (spec.expression.next now : Outcome Refusal (Option Instant)) with
  | error e => simp [bind, Except.bind]
  | ok next => simp [bind, Except.bind, eq_comm]

/-- A definition changes neither who a job is nor its times to run. -/
theorem apply_eq_ok : job.apply spec now = .ok other ↔
    ∃ next, (spec.expression.next now : Outcome Refusal (Option Instant)) = .ok next ∧ other = { job with
      expression := spec.expression
      status := statusFor spec.status next
      subject := spec.subject
      payload := spec.payload
      delay := spec.delay
      updatedAt := now } := by
  unfold Job.apply
  cases h : (spec.expression.next now : Outcome Refusal (Option Instant)) with
  | error e => simp [bind, Except.bind]
  | ok next => simp [bind, Except.bind, eq_comm]

/-- A new job is as its definition makes it: to apply that once more changes nothing. -/
theorem apply_of_create (h : Job.create id spec now = .ok made) : made.apply spec now = .ok made := by
  obtain ⟨next, found, rfl⟩ := create_eq_ok.mp h
  exact apply_eq_ok.mpr ⟨next, found, rfl⟩

/-- Of two definitions that are applied at the same time the second one alone counts. -/
theorem apply_of_apply (h : job.apply first now = .ok other) : other.apply spec now = job.apply spec now := by
  obtain ⟨_, -, rfl⟩ := apply_eq_ok.mp h
  rfl

end

/-! ### Fires -/

theorem isDue_iff {job : Job} {now : Instant} : job.isDue now = true ↔ job.status = .active ∧ job.nextRunAt ≤ now := by
  simp [isDue]

theorem isDue_eq_false_iff {job : Job} {now : Instant} :
    job.isDue now = false ↔ job.status ≠ .active ∨ now < job.nextRunAt := by
  rw [← Bool.not_eq_true, isDue_iff, Decidable.not_and_iff_or_not, Std.not_le]

/-- What keeps a job from firing is found before the job is written. -/
theorem fireInPlace_apply (job : Job) (id : TaskId) (now : Instant) (maxAttempts : Nat) :
    fireInPlace id now maxAttempts job =
      if job.isDue now then
        match now.delayed job.delay, (job.expression.next now : Outcome Refusal (Option Instant)) with
        | .error cause, _ => (.error (.refused cause), job)
        | .ok _, .error h => (.error h, job)
        | .ok runAfter, .ok later =>
          (.ok ⟨.create id ⟨job.subject, job.payload, some runAfter, maxAttempts⟩ now, later.isNone⟩, job.advance later now)
      else (.error (.refused (.jobNotDue job.name)), job) := by
  -- The first thing that a fire does is to look at the job.
  change (ite ((!job.isDue now) = true) _ _ : JobM Fire) job = _
  cases job.isDue now with
  | false => rfl
  | true =>
    cases now.delayed job.delay with
    | error cause => rfl
    | ok runAfter =>
      cases (job.expression.next now : Outcome Refusal (Option Instant)) with
      | error h => rfl
      | ok later => rfl

/-- A job that has moved on waits for a later time, or is disabled. -/
theorem not_isDue_advance {job : Job} {now t : Instant} {next : Option Instant}
    (ahead : ∀ later, next = some later → now < later) (le : t ≤ now) :
    (job.advance next now).isDue t = false := by
  cases next with
  | none => exact isDue_eq_false_iff.mpr (Or.inl nofun)
  | some later => exact isDue_eq_false_iff.mpr (Or.inr (Std.lt_of_le_of_lt le (ahead later rfl)))

/-- A job fires when it is due, the time for its task can be told, and the search for its next time ends. -/
theorem fire_eq_ok {job next : Job} {id : TaskId} {now : Instant} {maxAttempts : Nat} {fire : Fire} :
    job.fire id now maxAttempts = .ok (next, fire) ↔
      job.isDue now = true ∧ ∃ runAfter later, now.delayed job.delay = .ok runAfter ∧
        (job.expression.next now : Outcome Refusal (Option Instant)) = .ok later ∧ next = job.advance later now ∧
        fire = ⟨.create id ⟨job.subject, job.payload, some runAfter, maxAttempts⟩ now, later.isNone⟩ := by
  rw [Job.fire, fireInPlace_apply]
  by_cases due : job.isDue now = true
  · cases hr : now.delayed job.delay with
    | error cause => simp [due]
    | ok runAfter =>
      cases hl : (job.expression.next now : Outcome Refusal (Option Instant)) with
      | error h => simp [due]
      | ok later => simp [due, eq_comm]
  · simp [due]

section
variable {job next : Job} {id : TaskId} {now : Instant} {maxAttempts : Nat} {fire : Fire}

theorem fire_name (h : job.fire id now maxAttempts = .ok (next, fire)) : next.name = job.name := by
  obtain ⟨-, _, _, -, -, rfl, -⟩ := fire_eq_ok.mp h
  rfl

theorem fire_id (h : job.fire id now maxAttempts = .ok (next, fire)) : next.id = job.id := by
  obtain ⟨-, _, _, -, -, rfl, -⟩ := fire_eq_ok.mp h
  rfl

theorem task_of_fire (h : job.fire id now maxAttempts = .ok (next, fire)) :
    fire.task.id = id ∧ fire.task.subject = job.subject := by
  obtain ⟨-, _, _, -, -, -, rfl⟩ := fire_eq_ok.mp h
  exact ⟨rfl, rfl⟩

theorem isDue_of_fire (h : job.fire id now maxAttempts = .ok (next, fire)) :
    job.status = .active ∧ job.nextRunAt ≤ now :=
  isDue_iff.mp (fire_eq_ok.mp h).1

/-- Unless the schedule is at its end, the job waits for the next time of it. -/
theorem next_of_fire (h : job.fire id now maxAttempts = .ok (next, fire)) (goes : fire.exhausted = false) :
    ∃ later, (job.expression.next now : Outcome Refusal (Option Instant)) = .ok (some later) ∧ now < later ∧
      next.nextRunAt = later := by
  obtain ⟨-, _, found, -, hfound, rfl, rfl⟩ := fire_eq_ok.mp h
  cases found with
  | none => cases goes
  | some later => exact ⟨later, hfound, Expression.lt_of_next hfound, rfl⟩

theorem disabled_of_fire (h : job.fire id now maxAttempts = .ok (next, fire)) (ends : fire.exhausted = true) :
    next.status = .disabled := by
  obtain ⟨-, _, found, -, -, rfl, rfl⟩ := fire_eq_ok.mp h
  cases found with
  | none => rfl
  | some later => cases ends

theorem nextRunAt_le_of_fire (h : job.fire id now maxAttempts = .ok (next, fire)) : job.nextRunAt ≤ next.nextRunAt := by
  obtain ⟨due, _, found, -, hfound, rfl, -⟩ := fire_eq_ok.mp h
  cases found with
  | none => exact Std.le_refl _
  | some later => exact Std.le_trans (isDue_iff.mp due).2 (Std.le_of_lt (Expression.lt_of_next hfound))

end

end Job
end DurableQueue
