import DurableQueue.Task

/-! What the actions on a task do. Each action is described once, by when it succeeds and by the task that it leaves;
    all else about tasks follows from these descriptions. -/

namespace DurableQueue

/-- What has been validated has a subject. -/
theorem NewTask.subject_ne_of_validate {new : NewTask} {now : Instant} (valid : new.validate now = .ok ()) :
    new.subject ≠ "" := by
  intro blank
  rw [NewTask.validate, Subject.validate, if_pos blank] at valid
  cases valid

namespace Task

variable {t u : Task} {now : Instant}

theorem isDue_iff : t.isDue now = true ↔ t.status = .pending ∧ t.runAfter ≤ now := by
  simp [isDue]

theorem isStuck_iff {cutoff : Instant} :
    t.isStuck cutoff = true ↔ t.status = .running ∧ ∃ last, t.lastAttempt = some last ∧ last < cutoff := by
  cases h : t.lastAttempt <;> simp [isStuck, h]

theorem claim_eq_ok : t.claim now = .ok u ↔
    t.status = .pending ∧ u = { t with status := .running, lastAttempt := some now, updatedAt := now } := by
  unfold claim
  split <;> simp_all [eq_comm]

theorem complete_eq_ok : t.complete now = .ok u ↔
    t.status = .running ∧ u = { t with status := .completed, updatedAt := now } := by
  unfold complete
  split <;> simp_all [eq_comm]

theorem resetStuck_eq_ok : t.resetStuck now = .ok u ↔
    t.status = .running ∧ u = { t with status := .pending, runAfter := t.runAfter.later now, updatedAt := now } := by
  unfold resetStuck
  split <;> simp_all [eq_comm]

/-- A task fails for good when its attempts are used up, and otherwise waits for the next one. -/
theorem failAttempt_eq_ok {error : String} {verdict : Verdict} : t.failAttempt error now = .ok (u, verdict) ↔
    t.status = .running ∧
      (t.maxAttempts ≤ t.attempts ∧ verdict = .failed ∧
          u = { t with status := .failed, lastError := some error, updatedAt := now } ∨
        t.attempts < t.maxAttempts ∧ ∃ earliest, now.add? (backoff (t.attempts + 1)) = some earliest ∧
          verdict = .retry (t.runAfter.later earliest) ∧
          u = { t with
            status := .pending
            attempts := t.attempts + 1
            runAfter := t.runAfter.later earliest
            lastError := some error
            updatedAt := now }) := by
  unfold failAttempt
  by_cases running : t.status = .running
  · by_cases spent : t.maxAttempts ≤ t.attempts
    · simp [running, spent, Nat.not_lt.mpr spent, eq_comm, and_comm]
    · cases h : now.add? (backoff (t.attempts + 1)) with
      | none => simp [running, spent, h, Outcome.ofOption, bind, Except.bind]
      | some earliest =>
        simp [running, spent, Nat.not_le.mp spent, h, Outcome.ofOption, bind, Except.bind, eq_comm, and_comm]
  · simp [running, Outcome.refuse]

theorem requeue_eq_ok : t.requeue now = .ok u ↔
    t.status.isTerminal = false ∧ ∃ earliest, now.add? requeueDelay = some earliest ∧
      u = { t with
        status := .pending
        attempts := t.attempts - 1
        runAfter := t.runAfter.later earliest
        updatedAt := now } := by
  unfold requeue
  by_cases terminal : t.status.isTerminal = true
  · simp [terminal, Outcome.refuse]
  · cases now.add? requeueDelay with
    | none => simp [terminal, Outcome.ofOption, bind, Except.bind]
    | some earliest => simp [terminal, Outcome.ofOption, bind, Except.bind, eq_comm]

/-- What a task is made with: no action changes it. -/
structure SameWork (t u : Task) : Prop where
  id : u.id = t.id
  subject : u.subject = t.subject
  payload : u.payload = t.payload
  maxAttempts : u.maxAttempts = t.maxAttempts
  createdAt : u.createdAt = t.createdAt

namespace SameWork

theorem refl (t : Task) : SameWork t t := ⟨rfl, rfl, rfl, rfl, rfl⟩

theorem trans {v : Task} (h : SameWork t u) (h' : SameWork u v) : SameWork t v where
  id := h'.id.trans h.id
  subject := h'.subject.trans h.subject
  payload := h'.payload.trans h.payload
  maxAttempts := h'.maxAttempts.trans h.maxAttempts
  createdAt := h'.createdAt.trans h.createdAt

end SameWork

end Task
end DurableQueue
