import DurableQueue.Proofs.Store.Run

/-! What holds of every task that came in through the queue or from a cron job, whatever has been done to it since and at
    whatever times. Each action keeps the facts together: the count of attempts stays in bounds because an attempt counts
    only while there is another one, and a count that is not zero has left an error behind. -/

namespace DurableQueue

/-- A task that can have come about through actions on a new one. -/
structure Task.Sound (t : Task) : Prop where
  subject : t.subject ≠ ""
  attempts_le : t.attempts ≤ t.maxAttempts
  failed : t.status = .failed → t.attempts = t.maxAttempts ∧ t.lastError.isSome = true
  error : 0 < t.attempts → t.lastError.isSome = true
  claimed : t.status = .running ∨ t.status = .completed → t.lastAttempt.isSome = true

theorem Task.sound_create {new : NewTask} (id : TaskId) (now : Instant) (h : new.subject ≠ "") :
    (Task.create id new now).Sound where
  subject := h
  attempts_le := Nat.zero_le _
  failed := nofun
  error := nofun
  claimed := nofun

namespace Store
variable {s s' : Store} {es : List Event}

theorem Event.Moves.sound {e : Event} {t u : Task} (h : e.Moves t u) (ht : t.Sound) : u.Sound := by
  obtain ⟨subject, attempts_le, failed, error, claimed⟩ := ht
  cases h with
  | kept => exact ⟨subject, attempts_le, failed, error, claimed⟩
  | claimed _ moved _ =>
    obtain ⟨-, rfl⟩ := Task.claim_eq_ok.mp moved
    exact ⟨subject, attempts_le, nofun, error, fun _ => rfl⟩
  | completed moved =>
    obtain ⟨running, rfl⟩ := Task.complete_eq_ok.mp moved
    exact ⟨subject, attempts_le, nofun, error, fun _ => claimed (Or.inl running)⟩
  | failed moved _ =>
    obtain ⟨-, ⟨spent, -, rfl⟩ | ⟨left, _, -, -, rfl⟩⟩ := Task.failAttempt_eq_ok.mp moved
    · exact ⟨subject, attempts_le, fun _ => ⟨Nat.le_antisymm attempts_le spent, rfl⟩, fun _ => rfl, nofun⟩
    · exact ⟨subject, left, nofun, fun _ => rfl, nofun⟩
  | requeued moved _ =>
    obtain ⟨-, _, -, rfl⟩ := Task.requeue_eq_ok.mp moved
    -- One attempt less is still in bounds, and if any is left there was one before.
    exact ⟨subject, Nat.le_trans (Nat.sub_le _ _) attempts_le, nofun,
      fun counted => error (Nat.lt_of_lt_of_le counted (Nat.sub_le _ _)), nofun⟩
  | reset _ moved =>
    obtain ⟨-, rfl⟩ := Task.resetStuck_eq_ok.mp moved
    exact ⟨subject, attempts_le, nofun, error, nofun⟩

theorem Run.sound (run : Run s es s') (inserted : ∀ e ∈ es, ∀ t ∈ e.inserted, t.Sound)
    (start : ∀ t ∈ s.tasks.rows, t.Sound) : ∀ t ∈ s'.tasks.rows, t.Sound :=
  run.invariant inserted (fun move => move.sound) start

theorem Event.inserted_sound {e : Event} {t : Task} (queued : ∀ tasks, e.call ≠ .insert tasks) (h : t ∈ e.inserted) :
    t.Sound := by
  have subject := Event.inserted_subject h
  obtain ⟨id, new, now, rfl⟩ := Event.inserted_created queued h
  exact Task.sound_create id now subject

/-- Every task that a run from the empty store leaves is sound, if tasks came in through the queue and from cron jobs
    only. A running one is stuck for exactly those who look back to a time after its last claim. -/
theorem stored_sound {id : TaskId} {t : Task} (run : Run {} es s) (queued : ∀ e ∈ es, ∀ tasks, e.call ≠ .insert tasks)
    (h : s.tasks.get? id = some t) :
    t.id = id ∧ t.Sound ∧
      (t.status = .running → ∃ last, t.lastAttempt = some last ∧ ∀ cutoff, t.isStuck cutoff = true ↔ last < cutoff) := by
  have sound : t.Sound :=
    run.sound (fun e he t ht => Event.inserted_sound (queued e he) ht) nofun t (Table.mem_of_get? h)
  refine ⟨Table.key_of_get? h, sound, fun running => ?_⟩
  obtain ⟨last, hlast⟩ := Option.isSome_iff_exists.mp (sound.claimed (Or.inl running))
  refine ⟨last, hlast, fun cutoff => ?_⟩
  rw [Task.isStuck_iff]
  constructor
  · rintro ⟨-, last', hlast', before⟩
    obtain rfl := Option.some.inj (hlast.symm.trans hlast')
    exact before
  · exact fun before => ⟨running, last, hlast, before⟩

theorem stored_sound_retried :
    ∃ t, (Call.afterAll Call.retried {}).tasks.get? (.made 0) = some t ∧ t.status = .running ∧ t.attempts = 1 ∧
      t.Sound := by
  have queued : ∀ e ∈ Call.events Call.retried {}, ∀ tasks, e.call ≠ .insert tasks := by
    simp [Call.retried, Call.events]
  exact ⟨_, rfl, rfl, rfl, (@stored_sound _ _ (.made 0) _ (.of_calls Call.retried {}) queued rfl).2.1⟩

end Store
end DurableQueue
