import DurableQueue.Proofs.Store.Run

/-! Claims exclude one another. A claimed task is not pending, and only pending tasks are claimed, so between two claims
    of a task some call has made it pending again: one that ends the attempt, puts the task back, or resets it. In the
    same way a task that has been reset is claimed before it is reset again. -/

namespace DurableQueue
namespace Store
variable {s s' : Store} {e e₁ e₂ : Event} {mid : List Event} {id : TaskId}

/-! ### Calls that make a task pending, and those that make it run -/

theorem Event.Claims.pending_running {now : Instant} (h : e.Claims id now) :
    (∃ t, e.before.tasks.get? id = some t ∧ t.status = .pending) ∧
      ∃ u, e.after.tasks.get? id = some u ∧ u.status = .running := by
  obtain ⟨t, u, ht, due, moved, hu⟩ := h.moved
  obtain ⟨pending, rfl⟩ := Task.claim_eq_ok.mp moved
  exact ⟨⟨t, ht, pending⟩, _, hu, rfl⟩

/-- The calls that make a task pending which was not. -/
theorem Event.Moves.freed {t u : Task} (h : e.Moves t u) (ht : t.status ≠ .pending) (hu : u.status = .pending)
    (before : e.before.tasks.get? id = some t) (after : e.after.tasks.get? id = some u) :
    (∃ now, e.Retries id now) ∨ (∃ now, e.Requeues id now) ∨ e.Resets id := by
  obtain rfl := Table.key_of_get? before
  cases h with
  | kept => exact absurd hu ht
  | claimed _ moved _ =>
    obtain ⟨-, rfl⟩ := Task.claim_eq_ok.mp moved
    cases hu
  | completed moved =>
    obtain ⟨-, rfl⟩ := Task.complete_eq_ok.mp moved
    cases hu
  | failed moved answer =>
    obtain ⟨-, ⟨-, -, rfl⟩ | ⟨-, _, -, rfl, rfl⟩⟩ := Task.failAttempt_eq_ok.mp moved
    · cases hu
    · exact Or.inl ⟨_, _, _, rfl, answer⟩
  | requeued _ answer => exact Or.inr (Or.inl ⟨_, rfl, answer⟩)
  | reset stuck _ =>
    obtain ⟨running, -⟩ := Task.isStuck_iff.mp stuck
    exact Or.inr (Or.inr ⟨⟨_, _, rfl⟩, ⟨t, before, running⟩, u, after, hu⟩)

/-- Only a claim makes a task run. -/
theorem Event.Moves.taken {t u : Task} (h : e.Moves t u) (ht : t.status ≠ .running) (hu : u.status = .running) :
    ∃ now, e.Claims t.id now := by
  have same := h.id_eq
  cases h with
  | kept => exact absurd hu ht
  | claimed _ _ answer => exact ⟨_, _, u, rfl, answer, same⟩
  | completed moved => exact absurd (Task.complete_eq_ok.mp moved).1 ht
  | failed moved _ => exact absurd (Task.failAttempt_eq_ok.mp moved).1 ht
  | requeued moved _ =>
    obtain ⟨-, _, -, rfl⟩ := Task.requeue_eq_ok.mp moved
    cases hu
  | reset _ moved => exact absurd (Task.resetStuck_eq_ok.mp moved).1 ht

/-! ### Runs -/

theorem Run.freed_between (run : Run e₁.after mid e₂.before) {now₁ now₂ : Instant} (first : e₁.Claims id now₁)
    (second : e₂.Claims id now₂) :
    ∃ e ∈ mid, (∃ now, e.Retries id now) ∨ (∃ now, e.Requeues id now) ∨ e.Resets id := by
  obtain ⟨-, t, ht, running⟩ := first.pending_running
  obtain ⟨⟨u, hu, pending⟩, -⟩ := second.pending_running
  obtain ⟨e, he, v, w, before, hv, after, hw, move⟩ :=
    run.exists_turn (fun t => t.status ≠ .pending) ht (by rw [running]; nofun) hu (not_not_intro pending)
  exact ⟨e, he, move.freed hv (Decidable.not_not.mp hw) before after⟩

theorem Run.claimed_between (run : Run e₁.after mid e₂.before) (first : e₁.Resets id) (second : e₂.Resets id) :
    ∃ e ∈ mid, ∃ now, e.Claims id now := by
  obtain ⟨-, -, t, ht, pending⟩ := first
  obtain ⟨-, ⟨u, hu, running⟩, -⟩ := second
  obtain ⟨e, he, v, w, before, hv, after, hw, move⟩ :=
    run.exists_turn (fun t => t.status ≠ .running) ht (by rw [pending]; nofun) hu (not_not_intro running)
  obtain rfl := Table.key_of_get? before
  exact ⟨e, he, move.taken hv (Decidable.not_not.mp hw)⟩

/-- Between two claims of a task, whoever makes them, a call has freed it: an attempt that is to be retried has ended, or
    the task was put back or reset. Between two resets of a task it has been claimed. -/
theorem claims_exclusive {front back : List Event} (run : Run s (front ++ e₁ :: (mid ++ e₂ :: back)) s') :
    (∀ now₁ now₂, e₁.Claims id now₁ → e₂.Claims id now₂ →
      ∃ e ∈ mid, (∃ now, e.Retries id now) ∨ (∃ now, e.Requeues id now) ∨ e.Resets id) ∧
    (e₁.Resets id → e₂.Resets id → ∃ e ∈ mid, ∃ now, e.Claims id now) := by
  obtain ⟨-, behind⟩ := Run.split_iff.mp run
  obtain ⟨between, -⟩ := Run.split_iff.mp behind
  exact ⟨fun _ _ first second => between.freed_between first second, between.claimed_between⟩

theorem claims_exclusive_retried_lost :
    (∃ front e₁ mid e₂ back s, Run {} (front ++ e₁ :: (mid ++ e₂ :: back)) s ∧
      (∃ now, e₁.Claims (.made 0) now) ∧ (∃ now, e₂.Claims (.made 0) now) ∧
        ∃ e ∈ mid, (∃ now, e.Retries (.made 0) now) ∨ (∃ now, e.Requeues (.made 0) now) ∨ e.Resets (.made 0)) ∧
    ∃ front e₁ mid e₂ back s, Run {} (front ++ e₁ :: (mid ++ e₂ :: back)) s ∧
      e₁.Resets (.made 0) ∧ e₂.Resets (.made 0) ∧ ∃ e ∈ mid, ∃ now, e.Claims (.made 0) now := by
  constructor
  · have first : Event.Claims ⟨.claim anySubject .epoch, Call.afterAll (Call.retried.take 1) {}⟩ (.made 0) .epoch :=
      ⟨_, _, rfl, rfl, rfl⟩
    have second : Event.Claims ⟨.claim anySubject ⟨15, 0⟩, Call.afterAll (Call.retried.take 3) {}⟩ (.made 0) ⟨15, 0⟩ :=
      ⟨_, _, rfl, rfl, rfl⟩
    have run : Run {} ([_] ++ _ :: ([_] ++ _ :: [])) _ := Run.of_calls Call.retried {}
    exact ⟨_, _, _, _, _, _, run, ⟨_, first⟩, ⟨_, second⟩, (claims_exclusive run).1 _ _ first second⟩
  · have first : Event.Resets ⟨.reset ⟨90, 0⟩ ⟨100, 0⟩, Call.afterAll (Call.lost.take 2) {}⟩ (.made 0) :=
      ⟨⟨_, _, rfl⟩, ⟨_, rfl, rfl⟩, _, rfl, rfl⟩
    have second : Event.Resets ⟨.reset ⟨190, 0⟩ ⟨20, 0⟩, Call.afterAll (Call.lost.take 4) {}⟩ (.made 0) :=
      ⟨⟨_, _, rfl⟩, ⟨_, rfl, rfl⟩, _, rfl, rfl⟩
    have run : Run {} ([_, _] ++ _ :: ([_] ++ _ :: [])) _ := Run.of_calls Call.lost {}
    exact ⟨_, _, _, _, _, _, run, first, second, (claims_exclusive run).2 first second⟩

end Store
end DurableQueue
