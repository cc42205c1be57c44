import DurableQueue.Proofs.Relational.Atomicity
import DurableQueue.Proofs.Relational.Database

/-! Nothing is lost when a call writes back columns instead of whole rows. What a call does to a task or a job it does to the
    columns that are written, so the row that is left stands for the task or the job that is left; and so calls on a database
    give the same results as calls on a store, and leave rows that stand for what is stored. -/

namespace DurableQueue
namespace Relational

open Session

/-! ### Rows -/

section
variable {row : Row} {t u : Task} {change : TaskChange} {result : change.Result} {job next fresh : Job} {now : Instant}

/-- No change touches what a task is made with, and attempts are counted up to their limit only. -/
theorem TaskChange.kept (h : change.apply t = .ok (u, result)) :
    t.SameWork u ∧ (u.attempts ≤ t.attempts ∨ u.attempts ≤ t.maxAttempts) := by
  cases change with
  | complete now =>
    cases hc : t.complete now with
    | error cause => simp [apply, hc, Except.map, Outcome.ofExcept] at h
    | ok v =>
      obtain ⟨-, rfl⟩ := Task.complete_eq_ok.mp hc
      simp only [apply, hc, Except.map, Outcome.ofExcept] at h
      cases h
      exact ⟨⟨rfl, rfl, rfl, rfl, rfl⟩, Or.inl (Nat.le_refl _)⟩
  | failAttempt error now =>
    obtain ⟨-, ⟨-, -, rfl⟩ | ⟨few, _, -, -, rfl⟩⟩ := Task.failAttempt_eq_ok.mp h
    · exact ⟨⟨rfl, rfl, rfl, rfl, rfl⟩, Or.inl (Nat.le_refl _)⟩
    · exact ⟨⟨rfl, rfl, rfl, rfl, rfl⟩, Or.inr few⟩
  | requeue now =>
    cases hc : t.requeue now with
    | error cause => simp [apply, hc, Except.map] at h
    | ok v =>
      obtain ⟨-, _, -, rfl⟩ := Task.requeue_eq_ok.mp hc
      simp only [apply, hc, Except.map] at h
      cases h
      exact ⟨⟨rfl, rfl, rfl, rfl, rfl⟩, Or.inl (Nat.sub_le _ _)⟩

theorem decodeTask_changed (fits : row.Fits) (h : decodeTask row = .ok t) (hc : change.apply t = .ok (u, result)) :
    decodeTask (row.update (taskChanges u)) = .ok u := by
  obtain ⟨same, few⟩ := TaskChange.kept hc
  obtain ⟨maxAttempts, attempts⟩ := fits.counters h
  exact decodeTask_update h same (by omega)

theorem decodeJob_fired {id : TaskId} {maxAttempts : Nat} {fire : Fire} (h : decodeJob row = .ok job)
    (hf : job.fire id now maxAttempts = .ok (next, fire)) : decodeJob (row.update (jobChanges next)) = .ok next := by
  obtain ⟨-, _, later, -, -, rfl, -⟩ := Job.fire_eq_ok.mp hf
  exact decodeJob_update_fired h later now

theorem name_ne_of_validate {spec : JobSpec} (valid : spec.validate = .ok ()) : spec.name ≠ "" := by
  intro blank
  rw [JobSpec.validate, if_pos (by rw [blank]; rfl)] at valid
  cases valid

theorem seconds_le_of_validate {spec : JobSpec} (valid : spec.validate = .ok ()) : spec.delay.seconds ≤ greatestInt8 := by
  have short : spec.delay.nanos ≤ longestDelay.nanos := (JobSpec.of_validate valid).2
  have bound : longestDelay.nanos / Span.perSecond ≤ greatestInt8 := by decide
  exact Nat.le_trans (Nat.div_le_div_right short) bound

theorem decodeJob_redefined {id : JobId} {spec : JobSpec} (h : decodeJob row = .ok job) (valid : spec.validate = .ok ())
    (whole : spec.delay.subsecond = 0) (made : Job.create id spec now = .ok fresh) : ∃ next, job.apply spec now = .ok next ∧
      decodeJob (row.update (JobRow.redefinition (JobRow.ofJob fresh).toRow)) = .ok next := by
  obtain ⟨next, found, rfl⟩ := Job.create_eq_ok.mp made
  refine ⟨_, Job.apply_eq_ok.mpr ⟨next, found, rfl⟩, ?_⟩
  exact decodeJob_update_redefined h whole (seconds_le_of_validate valid)

end

/-! ### Tables -/

/-- The rows of tasks stand for the tasks that are stored. -/
def TasksAlike (tables : Tables) (stored : Table Task.id) : Prop :=
  ∀ id, Option.Rel (fun row t => row.Fits ∧ decodeTask row = .ok t) (tables.task id) (stored.get? id)

def JobsAlike (tables : Tables) (stored : Table Job.name) : Prop :=
  ∀ name, Option.Rel (fun row job => decodeJob row = .ok job) (tables.job name) (stored.get? name)

structure Alike (tables : Tables) (store : Store) : Prop where
  tasks : TasksAlike tables store.tasks
  jobs : JobsAlike tables store.jobs

namespace TaskChange

def stored (id : TaskId) : (change : TaskChange) → StoreM change.Result
  | complete now => Store.complete id now
  | failAttempt error now => Store.failAttempt id error now
  | requeue now => Store.requeue id now

theorem stored_eq (id : TaskId) (change : TaskChange) : change.stored id = Store.changeTask id change.apply := by
  cases change <;> rfl

end TaskChange

variable {σ α : Type} {database : σ → Statement → Reply × σ} {view : σ → View} {tables saved : Tables} {store : Store}

theorem Alike.exists_task (alike : Alike tables store) {id : TaskId} {t : Task} (found : store.tasks.get? id = some t) :
    ∃ row, tables.task id = some row ∧ row.Fits ∧ decodeTask row = .ok t := by
  have rel := alike.tasks id
  rw [found] at rel
  generalize tables.task id = row at rel
  cases rel with
  | some h => exact ⟨_, rfl, h⟩

theorem Alike.updateTask (alike : Alike tables store) {row : Row} {t u : Task} (shown : tables.task t.id = some row)
    (same : u.id = t.id) (fits : row.Fits) (reads : decodeTask (row.update (taskChanges u)) = .ok u) :
    Alike (tables.updateTask u.id (taskChanges u)) { store with tasks := store.tasks.put u } where
  tasks := by
    intro id
    rw [Table.get?_put]
    by_cases h : u.id = id
    · subst h
      rw [Tables.updateTask, if_pos rfl]
      simp only [↓reduceIte]
      rw [same, shown]
      exact .some ⟨fits.update (taskChanges_fits u), reads⟩
    · rw [Tables.updateTask, if_neg h]
      simp only [Ne.symm h, ↓reduceIte]
      exact alike.tasks id
  jobs := alike.jobs

/-- A call on a database and a call on a store give the same result, and leave rows that stand for what is stored. -/
def Agree (database : σ → Statement → Reply × σ) (view : σ → View) (call : Session α) (stored : StoreM α) : Prop :=
  ∀ s store, Alike (view s).shown store → store.poisoned = false →
    ∃ s', call.run.run database s = ((stored store).1, s') ∧ Alike (view s').shown (stored store).2

/-! ### Tasks -/

theorem judged_readTask (alike : Alike tables store) (id : TaskId) (change : TaskChange) (n : Nat) :
    judged (Writing.readTask id ⟨(tables.task id).toList, n⟩) change.apply = match store.tasks.get? id with
      | none => .error (.refused (.taskNotFound id))
      | some t => .mapCause .refused (change.apply t) := by
  have rel := alike.tasks id
  generalize tables.task id = row at rel
  generalize store.tasks.get? id = t at rel
  cases rel with
  | none => rfl
  | some h =>
    rw [Writing.readTask, readFirst]
    simp only [Option.toList_some, h.2]
    rfl

/-- The tables after a change that may be refused. -/
def written (tables : Tables) : Outcome StoreFault (Task × α) → Tables
  | .ok (u, _) => tables.updateTask u.id (taskChanges u)
  | .error _ => tables

theorem leads_changeRow (keeps : Keeps database view) (saved : Tables) {id : TaskId} {change : TaskChange}
    {x : Outcome StoreFault (Task × change.Result)}
    (h : ∀ n, judged (Writing.readTask id ⟨(tables.task id).toList, n⟩) change.apply = x) :
    Leads database view saved (Writing.changeRow id change) tables (x.map Prod.snd) (written tables x) := by
  refine leads_query fun s hs => ?_
  obtain ⟨n, s', hreply, hs'⟩ := keeps.lockTask s id
  rw [hs] at hreply hs'
  refine ⟨_, s', _, hreply, hs', ?_⟩
  cases x with
  | error cause => exact leads_judged_error (h n)
  | ok changed =>
    refine leads_judged_ok (h n) (leads_query fun s hs => ?_)
    obtain ⟨answer, s', hreply, hs'⟩ := keeps.updateTask s changed.1
    rw [hs] at hs'
    exact ⟨answer, s', _, hreply, hs', leads_pure changed.2⟩

theorem agree_change (keeps : Keeps database view) (id : TaskId) (change : TaskChange) :
    Agree database view (change.session id) (change.stored id) := by
  intro s store alike isOpen
  have session : change.session id = inTransaction (Writing.changeRow id change) := Writing.session_changeTask id change
  have leads := leads_changeRow keeps (view s).shown (judged_readTask alike id change)
  rw [session, TaskChange.stored_eq, Store.changeTask_apply, if_neg (Bool.eq_false_iff.mp isOpen)]
  cases found : store.tasks.get? id with
  | none =>
    -- no row is written, but the transaction has been opened and is taken back
    rw [found] at leads
    obtain ⟨s', hrun, hs'⟩ := keeps.takesBack leads s rfl
    exact ⟨s', hrun, hs' ▸ alike⟩
  | some t =>
    rw [found] at leads
    dsimp only at leads ⊢
    cases changed : change.apply t with
    | error h =>
      rw [changed] at leads
      obtain ⟨s', hrun, hs'⟩ := keeps.takesBack leads s rfl
      cases h with
      | refused cause => exact ⟨s', hrun, hs' ▸ alike⟩
      | crashed => exact ⟨s', hrun, by rw [hs']; exact ⟨alike.tasks, alike.jobs⟩⟩
    | ok made =>
      obtain ⟨u, result⟩ := made
      rw [changed] at leads
      obtain ⟨s', hrun, hs'⟩ := keeps.commits leads s rfl
      refine ⟨s', hrun, ?_⟩
      obtain ⟨row, shown, fits, reads⟩ := alike.exists_task found
      rw [← Table.key_of_get? found] at shown
      rw [hs']
      exact alike.updateTask shown (TaskChange.kept changed).1.id fits (decodeTask_changed fits reads changed)

end Relational
end DurableQueue
