import DurableQueue.Proofs.Store.Turn

/-! No two fires of a job for one time of its schedule, by however many schedulers and by whatever clocks. A fire moves the
    job on to a later time and the time of the next fire never moves back, so a clock that is behind finds the job waiting.
    A job whose schedule has come to its end is disabled, and only a new definition can change that. -/

namespace DurableQueue
namespace Store
variable {s s' : Store} {e e₁ e₂ : Event} {front mid back : List Event} {name : String} {t₁ t₂ : Instant}
variable {f₁ f₂ : FiredJob} {job job' : Job}

theorem Event.Turns.nextRunAt_le (h : e.Turns name (some job) (some job')) : job.nextRunAt ≤ job'.nextRunAt := by
  cases h with
  | kept => exact Std.le_refl _
  | registered _ moved =>
    rcases moved.applied with ⟨-, rfl⟩ | ⟨last, -, moved⟩
    · exact Std.le_refl _
    · obtain ⟨_, -, rfl⟩ := Job.apply_eq_ok.mp moved
      exact Std.le_refl _
  | fired _ moved => exact Job.nextRunAt_le_of_fire moved

theorem Run.nextRunAt_le {es : List Event} (run : Run s es s') (h : s.jobs.get? name = some job) :
    ∃ job', s'.jobs.get? name = some job' ∧ job.nextRunAt ≤ job'.nextRunAt :=
  run.related_job (fun a b => a.nextRunAt ≤ b.nextRunAt) (fun _ => Std.le_refl _) Std.le_trans
    (fun turn => turn.nextRunAt_le) h

/-- Only a definition makes a disabled job fire again. -/
theorem Event.Turns.registers (h : e.Turns name (some job) (some job')) (off : job.status ≠ .active)
    (on : job'.status = .active) : ∃ now specs, e.Registers name now specs := by
  cases h with
  | kept => exact absurd on off
  | registered registers _ => exact ⟨_, _, registers⟩
  | fired _ moved => exact absurd (Job.isDue_of_fire moved).1 off

/-! ### Two fires -/

/-- A job that fires at the first minute, gets another schedule by a clock that is behind, and fires at the second. -/
def Call.replaced : List Call :=
  registered ++ [.fire TaskId.made ⟨60, 0⟩ 1 3, .upsert JobId.made [.plain "a" .everyHour] ⟨50, 0⟩,
    .fire (fun n => .made (n + 1)) ⟨120, 0⟩ 1 3]

/-- A job that fires in the last minute of the last year, and does so again after it has been registered again by a
    clock that is behind. -/
def Call.exhausted : List Call :=
  [.upsert JobId.made [.plain "a" .everyMinute] ⟨4133980710, 0⟩, .fire TaskId.made ⟨4133980750, 0⟩ 1 3,
    .upsert JobId.made [.plain "a" .everyMinute] ⟨4133980710, 0⟩,
    .fire (fun n => .made (n + 1)) ⟨4133980750, 0⟩ 1 3]

/-- Of two ticks that fire a job, the first fires it once and leaves it the next time of the schedule that the job had
    then, and the second comes no earlier than that time; if the first has exhausted the schedule, the job has been
    registered in between. -/
theorem fires_separated (run : Run s (front ++ e₁ :: (mid ++ e₂ :: back)) s') (first : e₁.Fires name t₁ f₁)
    (second : e₂.Fires name t₂ f₂) :
    (∀ t f, e₁.Fires name t f → t = t₁ ∧ f = f₁) ∧
    (f₁.fire.exhausted = false → ∃ job later, e₁.before.jobs.get? name = some job ∧
      (job.expression.next t₁ : Outcome Refusal (Option Instant)) = .ok (some later) ∧ t₁ < later ∧ later ≤ t₂) ∧
    (f₁.fire.exhausted = true → ∃ e ∈ mid, ∃ now specs, e.Registers name now specs) := by
  obtain ⟨-, behind⟩ := Run.split_iff.mp run
  obtain ⟨between, -⟩ := Run.split_iff.mp behind
  obtain ⟨job, _, _, stored, moved, left⟩ := first.moved
  obtain ⟨job', _, _, found, moved', -⟩ := second.moved
  obtain ⟨active, reached⟩ := Job.isDue_of_fire moved'
  refine ⟨fun t f again => again.unique first, ?_, ?_⟩
  · intro goes
    obtain ⟨later, next, lt, waits⟩ := Job.next_of_fire moved goes
    obtain ⟨waiting, same, le⟩ := between.nextRunAt_le left
    obtain rfl := Option.some.inj (same.symm.trans found)
    exact ⟨job, later, stored, next, lt, Std.le_trans (waits ▸ le) reached⟩
  · intro ends
    have disabled := Job.disabled_of_fire moved ends
    obtain ⟨e, he, a, b, off, on, turn⟩ := between.exists_job_turn (fun job => job.status ≠ .active) left
      (by rw [disabled]; nofun) found (not_not_intro active)
    exact ⟨e, he, turn.registers off (Decidable.not_not.mp on)⟩

theorem fires_separated_replaced_exhausted :
    (∃ front e₁ mid e₂ s f₁ f₂, Run {} (front ++ e₁ :: (mid ++ [e₂])) s ∧ e₁.Fires "a" ⟨60, 0⟩ f₁ ∧
      f₁.fire.exhausted = false ∧ e₂.Fires "a" ⟨120, 0⟩ f₂ ∧
      ∃ job later, e₁.before.jobs.get? "a" = some job ∧
        (job.expression.next ⟨60, 0⟩ : Outcome Refusal (Option Instant)) = .ok (some later) ∧ later ≤ ⟨120, 0⟩) ∧
    ∃ front e₁ mid e₂ s t f₁ f₂, Run {} (front ++ e₁ :: (mid ++ [e₂])) s ∧ e₁.Fires "a" t f₁ ∧
      f₁.fire.exhausted = true ∧ e₂.Fires "a" t f₂ ∧ ∃ e ∈ mid, ∃ now specs, e.Registers "a" now specs := by
  constructor
  · have run : Run {} ([_] ++ _ :: ([_] ++ _ :: [])) _ := Run.of_calls Call.replaced {}
    obtain ⟨f₁, first, goes⟩ : ∃ f, Event.Fires ⟨.fire TaskId.made ⟨60, 0⟩ 1 3, Call.afterAll Call.registered {}⟩
        "a" ⟨60, 0⟩ f ∧ f.fire.exhausted = false := Event.fires_of_answer (by decide +kernel)
    obtain ⟨f₂, second, -⟩ : ∃ f, Event.Fires ⟨.fire (fun n => .made (n + 1)) ⟨120, 0⟩ 1 3,
        Call.afterAll (Call.replaced.take 3) {}⟩ "a" ⟨120, 0⟩ f ∧ f.fire.exhausted = false :=
      Event.fires_of_answer (by decide +kernel)
    obtain ⟨job, later, stored, next, -, le⟩ := (fires_separated run first second).2.1 goes
    exact ⟨_, _, _, _, _, f₁, f₂, run, first, goes, second, job, later, stored, next, le⟩
  · have run : Run {} ([_] ++ _ :: ([_] ++ _ :: [])) _ := Run.of_calls Call.exhausted {}
    obtain ⟨f₁, first, ends⟩ : ∃ f, Event.Fires ⟨.fire TaskId.made ⟨4133980750, 0⟩ 1 3,
        Call.afterAll (Call.exhausted.take 1) {}⟩ "a" ⟨4133980750, 0⟩ f ∧ f.fire.exhausted = true :=
      Event.fires_of_answer (by decide +kernel)
    obtain ⟨f₂, second, -⟩ : ∃ f, Event.Fires ⟨.fire (fun n => .made (n + 1)) ⟨4133980750, 0⟩ 1 3,
        Call.afterAll (Call.exhausted.take 3) {}⟩ "a" ⟨4133980750, 0⟩ f ∧ f.fire.exhausted = true :=
      Event.fires_of_answer (by decide +kernel)
    exact ⟨_, _, _, _, _, _, f₁, f₂, run, first, ends, second, (fires_separated run first second).2.2 ends⟩

end Store
end DurableQueue
