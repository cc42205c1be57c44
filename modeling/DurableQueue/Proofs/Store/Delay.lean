import DurableQueue.Proofs.Instant.Order
import DurableQueue.Proofs.Store.Run

/-! No task is delivered early. The time from which a task may run never moves back, whatever is done to it and by
    whatever clock, and a claim finds it reached. So a delay that a call has set once binds every later claim. -/

namespace DurableQueue

theorem backoff_seconds (attempts : Nat) : backoff attempts = .ofSeconds (min (10 * Nat.pow 2 attempts) 600) := by
  have base : retryBase.nanos * Nat.pow 2 attempts = 10 * Nat.pow 2 attempts * Span.perSecond := Nat.mul_right_comm _ _ _
  have cap : retryCap.nanos = 600 * Span.perSecond := rfl
  rw [backoff_eq, base, cap, Nat.mul_min_mul_right]
  rfl

namespace Store
variable {s s' : Store} {e : Event} {es : List Event} {id : TaskId} {t u : Task} {now : Instant}

/-! ### The time from which a task may run -/

theorem Event.Moves.runAfter_le (h : e.Moves t u) : t.runAfter ≤ u.runAfter := by
  cases h with
  | kept => exact Std.le_refl _
  | claimed _ moved _ =>
    rw [(Task.claim_eq_ok.mp moved).2]
    exact Std.le_refl _
  | completed moved =>
    rw [(Task.complete_eq_ok.mp moved).2]
    exact Std.le_refl _
  | failed moved _ =>
    obtain ⟨-, ⟨-, -, rfl⟩ | ⟨-, _, -, -, rfl⟩⟩ := Task.failAttempt_eq_ok.mp moved
    · exact Std.le_refl _
    · exact Instant.le_later_left _ _
  | requeued moved _ =>
    obtain ⟨-, _, -, rfl⟩ := Task.requeue_eq_ok.mp moved
    exact Instant.le_later_left _ _
  | reset _ moved =>
    rw [(Task.resetStuck_eq_ok.mp moved).2]
    exact Instant.le_later_left _ _

theorem Run.runAfter_le (run : Run s es s') (h : s.tasks.get? id = some t) :
    ∃ u, s'.tasks.get? id = some u ∧ t.runAfter ≤ u.runAfter :=
  run.related (fun t u => t.runAfter ≤ u.runAfter) (fun _ => Std.le_refl _) Std.le_trans (fun move => move.runAfter_le) h

theorem Event.Retries.runAfter_le (h : e.Retries id now) :
    ∃ t, e.after.tasks.get? id = some t ∧ now.add (backoff t.attempts) ≤ t.runAfter := by
  obtain ⟨t, u, error, runAfter, -, moved, hu⟩ := h.moved
  obtain ⟨-, ⟨-, ⟨⟩, -⟩ | ⟨-, earliest, sum, -, rfl⟩⟩ := Task.failAttempt_eq_ok.mp moved
  obtain ⟨-, rfl⟩ := Instant.add?_eq_some_iff.mp sum
  exact ⟨_, hu, Instant.le_later_right _ _⟩

theorem Event.Requeues.runAfter_le (h : e.Requeues id now) :
    ∃ t, e.after.tasks.get? id = some t ∧ now.add requeueDelay ≤ t.runAfter := by
  obtain ⟨t, u, -, moved, hu⟩ := h.moved
  obtain ⟨-, earliest, sum, rfl⟩ := Task.requeue_eq_ok.mp moved
  obtain ⟨-, rfl⟩ := Instant.add?_eq_some_iff.mp sum
  exact ⟨_, hu, Instant.le_later_right _ _⟩

/-! ### Claims -/

/-- A claim of a task comes no earlier than the task was to run at any time before. -/
theorem Run.runAfter_le_of_claims (run : Run s es s') (h : s.tasks.get? id = some t) (he : e ∈ es)
    (claims : e.Claims id now) : t.runAfter ≤ now := by
  -- In front of the claim the time has at most grown, and the claim finds it reached.
  obtain ⟨front, back, rfl⟩ := List.append_of_mem he
  obtain ⟨u, hu, le⟩ := (split_iff.mp run).1.runAfter_le h
  obtain ⟨u', -, hu', due, -, -⟩ := claims.moved
  obtain rfl := Option.some.inj (hu.symm.trans hu')
  exact Std.le_trans le (Task.isDue_iff.mp due).2

/-- The time from which a task may run never decreases along a run. A claim later than a call comes no earlier than a
    task that the call has inserted is to run, than the call's time and the delay of the next attempt if the call has
    ended one, and than its time and ten seconds if it has put the task back. -/
theorem delivery_not_early {front back : List Event} (run : Run s (front ++ e :: back) s') :
    (∀ id t, e.before.tasks.get? id = some t → ∃ u, s'.tasks.get? id = some u ∧ t.runAfter ≤ u.runAfter) ∧
    ∀ e' ∈ back, ∀ id now', e'.Claims id now' →
      (∀ t ∈ e.inserted, t.id = id → t.runAfter ≤ now') ∧
      (∀ now t, e.Retries id now → e.after.tasks.get? id = some t →
        now.add (.ofSeconds (min (10 * Nat.pow 2 t.attempts) 600)) ≤ now') ∧
      ∀ now, e.Requeues id now → now.add (.ofSeconds 10) ≤ now' := by
  obtain ⟨-, behind⟩ := Run.split_iff.mp run
  refine ⟨fun id t h => (Run.cons e behind).runAfter_le h, fun e' he' id now' claims => ⟨?_, ?_, ?_⟩⟩
  · rintro t ht rfl
    exact behind.runAfter_le_of_claims (Event.get?_inserted ht) he' claims
  · intro now t retries ht
    obtain ⟨u, hu, le⟩ := retries.runAfter_le
    obtain rfl := Option.some.inj (ht.symm.trans hu)
    rw [← backoff_seconds]
    exact Std.le_trans le (behind.runAfter_le_of_claims ht he' claims)
  · intro now requeues
    obtain ⟨u, hu, le⟩ := requeues.runAfter_le
    exact Std.le_trans le (behind.runAfter_le_of_claims hu he' claims)

theorem delivery_not_early_retried_requeued :
    (∃ front e e' s t, Run {} (front ++ e :: [e']) s ∧ e.Retries (.made 0) ⟨-5, 0⟩ ∧
      e.after.tasks.get? (.made 0) = some t ∧ t.attempts = 1 ∧ e'.Claims (.made 0) ⟨15, 0⟩ ∧
        Instant.add ⟨-5, 0⟩ (.ofSeconds (min (10 * Nat.pow 2 t.attempts) 600)) ≤ ⟨15, 0⟩) ∧
    ∃ front e e' s, Run {} (front ++ e :: [e']) s ∧ e.Requeues (.made 0) ⟨-1, 0⟩ ∧ e'.Claims (.made 0) ⟨9, 0⟩ ∧
      Instant.add ⟨-1, 0⟩ (.ofSeconds 10) ≤ ⟨9, 0⟩ := by
  constructor
  · have run : Run {} ([_, _] ++ _ :: [_]) _ := Run.of_calls Call.retried {}
    have retries : Event.Retries ⟨.fail (.made 0) "no" ⟨-5, 0⟩, Call.afterAll (Call.retried.take 2) {}⟩ (.made 0)
        ⟨-5, 0⟩ := ⟨_, _, rfl, rfl⟩
    have claims : Event.Claims ⟨.claim anySubject ⟨15, 0⟩, Call.afterAll (Call.retried.take 3) {}⟩ (.made 0) ⟨15, 0⟩ :=
      ⟨_, _, rfl, rfl, rfl⟩
    exact ⟨_, _, _, _, _, run, retries, rfl, rfl, claims,
      ((delivery_not_early run).2 _ List.mem_cons_self _ _ claims).2.1 _ _ retries rfl⟩
  · have run : Run {} ([_, _] ++ _ :: [_]) _ := Run.of_calls
      [.publish TaskId.made .epoch [.of "a" []], .claim anySubject .epoch, .requeue (.made 0) ⟨-1, 0⟩,
        .claim anySubject ⟨9, 0⟩] {}
    have requeues : Event.Requeues ⟨.requeue (.made 0) ⟨-1, 0⟩, Call.afterAll (Call.retried.take 2) {}⟩ (.made 0)
        ⟨-1, 0⟩ := ⟨rfl, rfl⟩
    have claims : Event.Claims ⟨.claim anySubject ⟨9, 0⟩,
        Call.after (.requeue (.made 0) ⟨-1, 0⟩) (Call.afterAll (Call.retried.take 2) {})⟩ (.made 0) ⟨9, 0⟩ :=
      ⟨_, _, rfl, rfl, rfl⟩
    exact ⟨_, _, _, _, run, requeues, claims,
      ((delivery_not_early run).2 _ List.mem_cons_self _ _ claims).2.2 _ requeues⟩

end Store
end DurableQueue
