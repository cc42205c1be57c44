import DurableQueue.Proofs.Store.Run
import DurableQueue.Proofs.Store.Tick

/-! What the calls of the store do to a cron job, seen under its name. A call leaves the job as it is, gives it a new
    definition or makes it, or fires it; `Event.turns` says so of all calls at once. No call takes a job away. -/

namespace DurableQueue
namespace Store
open StoreM

/-- A job is made that is to fire every minute. -/
def Call.registered : List Call := [.upsert JobId.made [.plain "a" .everyMinute] .epoch]

namespace Event

/-- The call was a tick at the given time and has fired the job of that name, with this entry in its answer. -/
def Fires (e : Event) (name : String) (now : Instant) (f : FiredJob) : Prop :=
  ∃ ids limit maxAttempts fired, e.call = .fire ids now limit maxAttempts ∧
    (fireDue ids now limit maxAttempts e.before).1 = .ok fired ∧ f ∈ fired ∧ f.job.name = name

/-- The call has registered definitions at the given time, these of the given name among them. -/
def Registers (e : Event) (name : String) (now : Instant) (specs : List JobSpec) : Prop :=
  specs ≠ [] ∧ ∃ ids all made, e.call = .upsert ids all now ∧ (upsertJobs ids all now e.before).1 = .ok made ∧
    (∀ spec ∈ all, spec.validate = .ok ()) ∧ specs = all.filter (·.name = name)

/-- What a call makes of the job of a name: it leaves the job, or the place for one, as it is, registers definitions of
    the name, or fires the job. -/
inductive Turns (name : String) : Event → Option Job → Option Job → Prop where
  | kept {e : Event} {job : Option Job} : Turns name e job job
  | registered {e : Event} {now : Instant} {specs : List JobSpec} {job final : Option Job}
      (registers : e.Registers name now specs) (moved : Registered now specs job final) : Turns name e job final
  | fired {e : Event} {id : TaskId} {now : Instant} {maxAttempts : Nat} {job : Job} {f : FiredJob}
      (fires : e.Fires name now f) (moved : job.fire id now maxAttempts = .ok (f.job, f.fire)) :
      Turns name e (some job) (some f.job)

variable {e : Event} {name : String} {now now' : Instant} {f f' : FiredJob}

/-! ### Ticks -/

/-- The job of an entry, before and after the tick. -/
theorem Fires.moved (h : e.Fires name now f) : ∃ job id maxAttempts, e.before.jobs.get? name = some job ∧
    job.fire id now maxAttempts = .ok (f.job, f.fire) ∧ e.after.jobs.get? name = some f.job := by
  obtain ⟨call, s⟩ := e
  obtain ⟨ids, limit, maxAttempts, fired, rfl, answer, member, rfl⟩ := h
  rcases fireDue_cases ids now limit maxAttempts s with ⟨h, poisoned, hs⟩ | ⟨-, entries, hf, -, hs⟩
  · simp [hs] at answer
  · obtain rfl : entries = fired := by simpa [hs] using answer
    obtain ⟨job, hjob, id, moved⟩ := fireFrom_mem hf member
    have stored := Table.get?_key (t := s.jobs) (mem_of_mem_selectDue hjob).1
    rw [← Job.fire_name moved] at stored
    refine ⟨job, id, maxAttempts, stored, moved, ?_⟩
    rw [after, Call.after, hs, get?_fired hf, find?_fired hf member]
    rfl

/-- A tick fires a job once. -/
theorem Fires.unique (h : e.Fires name now f) (h' : e.Fires name now' f') : now = now' ∧ f = f' := by
  obtain ⟨call, s⟩ := e
  obtain ⟨ids, limit, maxAttempts, fired, rfl, answer, member, rfl⟩ := h
  obtain ⟨_, _, _, fired', ⟨⟩, answer', member', same⟩ := h'
  rcases fireDue_cases ids now limit maxAttempts s with ⟨h, poisoned, hs⟩ | ⟨-, entries, hf, -, hs⟩
  · simp [hs] at answer
  · obtain rfl : entries = fired := by simpa [hs] using answer
    obtain rfl : entries = fired' := by simpa [hs] using answer'
    have found := find?_fired hf member'
    rw [same, find?_fired hf member] at found
    exact ⟨rfl, Option.some.inj found⟩

/-- A tick whose answer names one job has fired it. -/
theorem fires_of_answer {s : Store} {ids : Nat → TaskId} {now : Instant} {limit maxAttempts : Nat} {ends : Bool}
    (h : (fireDue ids now limit maxAttempts s).1.toOption.map (·.map fun f => (f.job.name, f.fire.exhausted)) =
      some [(name, ends)]) :
    ∃ f, Fires ⟨.fire ids now limit maxAttempts, s⟩ name now f ∧ f.fire.exhausted = ends := by
  obtain ⟨fired, answer, entries⟩ := Option.map_eq_some_iff.mp h
  obtain ⟨f, rfl, entry⟩ := List.map_eq_singleton_iff.mp entries
  refine ⟨f, ⟨ids, limit, maxAttempts, [f], rfl, ?_, List.mem_singleton_self f, congrArg Prod.fst entry⟩,
    congrArg Prod.snd entry⟩
  cases hs : (fireDue ids now limit maxAttempts s).1 with
  | error e => rw [hs] at answer; cases answer
  | ok all => rw [hs] at answer; exact congrArg Except.ok (Option.some.inj answer)

/-! ### All calls -/

theorem turns_of_same (same : e.after.jobs = e.before.jobs) :
    e.Turns name (e.before.jobs.get? name) (e.after.jobs.get? name) := by
  rw [same]
  exact .kept

theorem turns (e : Event) (name : String) : e.Turns name (e.before.jobs.get? name) (e.after.jobs.get? name) := by
  obtain ⟨call, s⟩ := e
  cases call with
  | insert tasks =>
    rcases insertTasks_cases tasks s with ⟨h, hs⟩ | ⟨-, -, hs⟩ <;>
      exact turns_of_same (by rw [after, Call.after, hs])
  | publish ids now news =>
    rcases publish_cases ids now news s with ⟨h, hs⟩ | ⟨-, -, hs⟩ <;>
      exact turns_of_same (by rw [after, Call.after, hs])
  | getTask id => exact turns_of_same (congrArg jobs (look_store (fun s => s.tasks.get? id) s))
  | claim pattern now =>
    rcases claimNext_cases pattern now s with ⟨-, hs⟩ | ⟨-, -, hs⟩ | ⟨-, t, u, -, -, hs⟩ <;>
      exact turns_of_same (by rw [after, Call.after, hs])
  | complete id now =>
    rcases complete_cases id now s with ⟨h, poisoned, hs⟩ | ⟨-, t, u, -, -, hs⟩ <;>
      exact turns_of_same (by rw [after, Call.after, hs])
  | fail id error now =>
    rcases failAttempt_cases id error now s with ⟨h, poisoned, hs⟩ | ⟨-, t, u, verdict, -, -, hs⟩ <;>
      exact turns_of_same (by rw [after, Call.after, hs])
  | requeue id now =>
    rcases requeue_cases id now s with ⟨h, poisoned, hs⟩ | ⟨-, t, u, -, -, hs⟩ <;>
      exact turns_of_same (by rw [after, Call.after, hs])
  | reset olderThan now =>
    have hs := resetStuck_apply olderThan now s
    split at hs <;> exact turns_of_same (by rw [after, Call.after, hs])
  | stats => exact turns_of_same (congrArg jobs (look_store (fun s => countTasks s.tasks.rows) s))
  | upsert ids specs now =>
    rcases upsertJobs_cases ids specs now s with ⟨h, poisoned, hs⟩ | ⟨-, valid, made, jobs, hs, all⟩
    · exact turns_of_same (by rw [after, Call.after, hs])
    · have moved := all name
      rw [after, Call.after, hs]
      by_cases named : specs.filter (·.name = name) = []
      · rw [named] at moved
        rw [moved.eq_of_nil]
        exact .kept
      · exact .registered ⟨named, ids, specs, made, rfl, by rw [hs], valid, rfl⟩ moved
  | getJob name => exact turns_of_same (congrArg jobs (look_store (fun s => s.jobs.get? name) s))
  | listJobs =>
    exact turns_of_same (congrArg jobs (look_store (fun s => s.jobs.rows.mergeSort fun a b => a.name ≤ b.name) s))
  | fire ids now limit maxAttempts =>
    rcases fireDue_cases ids now limit maxAttempts s with ⟨h, poisoned, hs⟩ | ⟨-, fired, hf, -, hs⟩
    · exact turns_of_same (by rw [after, Call.after, hs])
    · by_cases named : ∃ f ∈ fired, f.job.name = name
      · obtain ⟨f, member, named⟩ := named
        have fires : Fires ⟨.fire ids now limit maxAttempts, s⟩ name now f :=
          ⟨ids, limit, maxAttempts, fired, rfl, by rw [hs], member, named⟩
        obtain ⟨job, id, attempts, before, moved, afterwards⟩ := fires.moved
        rw [before, afterwards]
        exact .fired fires moved
      · have absent : fired.find? (·.job.name = name) = none := by
          rw [List.find?_eq_none]
          exact fun f member same => named ⟨f, member, of_decide_eq_true same⟩
        rw [after, Call.after, hs, get?_fired hf, absent]
        exact .kept

/-! ### Jobs that are there -/

theorem Turns.eq_none {job : Option Job} (h : e.Turns name job none) : job = none := by
  cases h with
  | kept => rfl
  | registered _ moved =>
    cases moved
    rfl

theorem job_after {job : Job} (h : e.before.jobs.get? name = some job) :
    ∃ next, e.after.jobs.get? name = some next ∧ e.Turns name (some job) (some next) := by
  have turn := e.turns name
  rw [h] at turn
  cases hafter : e.after.jobs.get? name with
  | none =>
    rw [hafter] at turn
    cases turn.eq_none
  | some next =>
    rw [hafter] at turn
    exact ⟨next, rfl, turn⟩

end Event

namespace Run
variable {s s' : Store} {es : List Event} {name : String} {job : Job}

theorem tracked_job (name : String) :
    Tracked (fun s => s.jobs.get? name) fun e job job' => e.Turns name (some job) (some job') where
  moves _ _ h := Event.job_after h
  stays order := order.getJob name

/-- A relation that every call respects holds between a job and what becomes of it. -/
theorem related_job (R : Job → Job → Prop) (refl : ∀ job, R job job) (trans : ∀ {a b c}, R a b → R b c → R a c)
    (turns : ∀ {e : Event} {a b}, e.Turns name (some a) (some b) → R a b) (run : Run s es s')
    (h : s.jobs.get? name = some job) : ∃ job', s'.jobs.get? name = some job' ∧ R job job' :=
  related_row (tracked_job name) R refl trans turns run h

/-- A property that every call keeps, and that it gives to the jobs it makes, holds of all stored jobs. -/
theorem job_invariant {P : Job → Prop}
    (turns : ∀ {e : Event} {name job final}, e.Turns name job (some final) → (∀ before ∈ job, P before) → P final)
    (run : Run s es s') (start : ∀ job ∈ s.jobs.rows, P job) : ∀ job ∈ s'.jobs.rows, P job := by
  induction run with
  | nil => exact start
  | cons e _ ih =>
    refine ih fun job hjob => ?_
    have turn := e.turns job.name
    rw [Table.get?_key hjob] at turn
    exact turns turn fun before hbefore => start before (Table.mem_of_get? hbefore)
  | reorder order _ ih => exact ih fun job hjob => start job (order.jobs.mem_iff.mp hjob)

/-- Where a job has a property and later has it no more, one of the calls between has taken it away. -/
theorem exists_job_turn (P : Job → Prop) (run : Run s es s') {job' : Job} (h : s.jobs.get? name = some job) (hP : P job)
    (h' : s'.jobs.get? name = some job') (hP' : ¬P job') :
    ∃ e ∈ es, ∃ a b, P a ∧ ¬P b ∧ e.Turns name (some a) (some b) := by
  obtain ⟨e, he, a, b, -, ha, -, hb, turn⟩ := exists_row_turn (tracked_job name) P run h hP h' hP'
  exact ⟨e, he, a, b, ha, hb, turn⟩

end Run

end Store
end DurableQueue
