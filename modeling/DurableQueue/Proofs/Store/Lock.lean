import DurableQueue.Proofs.Store.Run

/-! The lock of the store. A call that crashes poisons it, and nothing else does: what a call does under the lock never
    touches the mark, so a store is poisoned exactly when one of the calls before has crashed. -/

namespace DurableQueue

namespace StoreM
variable {α β : Type}

/-- Whatever comes of the call, it leaves the mark of the lock as it is. -/
def Steady (call : StoreM α) : Prop := ∀ s, (call s).2.poisoned = s.poisoned

theorem steady_pure (a : α) : Steady (pure a) := fun _ => rfl

theorem steady_get : Steady get := fun _ => rfl

theorem steady_refuse (fault : StoreFault) : Steady (refuse fault : StoreM α) := fun _ => rfl

theorem steady_putTask (t : Task) : Steady (putTask t) := fun _ => rfl

theorem steady_putJob (job : Job) : Steady (putJob job) := fun _ => rfl

theorem steady_ofOutcome (r : Outcome Refusal α) : Steady (ofOutcome r) := fun s => by rw [ofOutcome_apply]

theorem steady_ofRule (r : Except Refusal α) : Steady (ofRule r) := by
  cases r with
  | ok a => exact steady_pure a
  | error cause => exact steady_refuse _

theorem Steady.bind {x : StoreM α} {f : α → StoreM β} (hx : Steady x) (hf : ∀ a, Steady (f a)) : Steady (x >>= f) := by
  intro s
  have first := hx s
  rw [bind_apply]
  rcases h : x s with ⟨_ | a, t⟩
  · rw [h] at first
    exact first
  · rw [h] at first
    exact (hf a t).trans first

theorem steady_putTasks (tasks : List Task) : Steady (tasks.forM putTask) := fun s => by rw [forM_putTask_apply]

/-- Of a call that leaves the mark alone, the lock notes a crash and nothing else. -/
theorem locked_poisoned {call : StoreM α} (h : Steady call) (s : Store) :
    (locked call s).2.poisoned = true ↔ s.poisoned = true ∨ (locked call s).1 = .error .crashed := by
  rw [locked_apply]
  by_cases poisoned : s.poisoned = true
  · simp [poisoned]
  · have kept := h s
    rw [if_neg poisoned]
    rcases hs : call s with ⟨(cause | _) | a, t⟩ <;> rw [hs] at kept <;> simp_all

end StoreM

namespace Store
open StoreM

/-! ### What is done under the lock -/

theorem steady_insertAll (tasks : List Task) : Steady (insertAll tasks) := by
  refine steady_get.bind fun s => ?_
  cases checkBatch s.tasks [] tasks with
  | error fault => exact steady_refuse fault
  | ok _ => exact steady_putTasks tasks

theorem steady_resetRows (olderThan now : Instant) (tasks : List Task) : Steady (resetRows olderThan now tasks) := by
  induction tasks with
  | nil => exact steady_pure 0
  | cons t rest ih =>
    rw [resetRows]
    split
    · exact (steady_ofRule _).bind fun u => (steady_putTask u).bind fun _ => ih.bind fun _ => steady_pure _
    · exact ih

theorem steady_upsertFrom (ids : Nat → JobId) (now : Instant) (place : Nat) (specs : List JobSpec) :
    Steady (upsertFrom ids now place specs) := by
  induction specs generalizing place with
  | nil => exact steady_pure []
  | cons spec rest ih =>
    refine Steady.bind (steady_get.bind fun s => ?_) fun job => (ih (place + 1)).bind fun _ => steady_pure _
    cases s.jobs.get? spec.name with
    | none => exact (steady_ofOutcome _).bind fun job => (steady_putJob job).bind fun _ => steady_pure job
    | some job => exact (steady_ofOutcome _).bind fun job => (steady_putJob job).bind fun _ => steady_pure job

theorem steady_putJobs (fired : List FiredJob) : Steady (fired.forM fun f => putJob f.job) :=
  fun s => by rw [forM_putJob_apply]

theorem steady_changeTask {α : Type} (id : TaskId) (change : Task → Outcome Refusal (Task × α)) : Steady (do
    match (← get).tasks.get? id with
    | none => refuse (.taskNotFound id)
    | some t => do
      let (changed, answer) ← ofOutcome (change t)
      putTask changed
      return answer) := by
  refine steady_get.bind fun s => ?_
  cases s.tasks.get? id with
  | none => exact steady_refuse _
  | some t => exact (steady_ofOutcome _).bind fun done => (steady_putTask done.1).bind fun _ => steady_pure done.2

/-! ### Calls -/

theorem crashed_map {ε δ α β : Type} (r : Outcome ε α) (f : α → β) (g : ε → δ) :
    (r.map f).mapError (·.map g) = .error .crashed ↔ r = .error .crashed := by
  rcases r with (cause | _) | a
  · exact iff_of_false nofun nofun
  · exact iff_of_true rfl rfl
  · exact iff_of_false nofun nofun

/-- A batch is validated before the lock is taken, and what is refused then does not touch the store. -/
theorem publish_poisoned (ids : Nat → TaskId) (now : Instant) (news : List NewTask) (s : Store) :
    (publish ids now news s).2.poisoned = true ↔ s.poisoned = true ∨ (publish ids now news s).1 = .error .crashed := by
  cases valid : Queue.validate now news with
  | error fault => simp [publish_refused valid]
  | ok _ =>
    cases news with
    | nil =>
      have nothing : publish ids now [] s = (.ok [], s) := rfl
      simp [nothing]
    | cons new rest =>
      have inserted := locked_poisoned (steady_insertAll (Queue.tasksOf ids now (new :: rest))) s
      rw [publish_apply valid]
      exact inserted.trans (or_congr_right (crashed_map _ _ _).symm)

theorem upsertJobs_poisoned (ids : Nat → JobId) (specs : List JobSpec) (now : Instant) (s : Store) :
    (upsertJobs ids specs now s).2.poisoned = true ↔
      s.poisoned = true ∨ (upsertJobs ids specs now s).1 = .error .crashed := by
  unfold upsertJobs
  rw [bind_apply]
  cases specs.forM JobSpec.validate with
  | error cause =>
    have refused : (ofRule (.error cause) : StoreM Unit) s = (.error (.refused (.refused cause)), s) := rfl
    simp [refused]
  | ok _ => exact locked_poisoned (steady_upsertFrom ids now 0 specs) s

namespace Event

/-- The call crashes while it holds the lock. -/
def Crashes (e : Event) : Prop :=
  match e.call with
  | .insert tasks => (insertTasks tasks e.before).1 = .error .crashed
  | .publish ids now news => (publish ids now news e.before).1 = .error .crashed
  | .getTask id => (Store.getTask id e.before).1 = .error .crashed
  | .claim pattern now => (claimNext pattern now e.before).1 = .error .crashed
  | .complete id now => (complete id now e.before).1 = .error .crashed
  | .fail id error now => (failAttempt id error now e.before).1 = .error .crashed
  | .requeue id now => (requeue id now e.before).1 = .error .crashed
  | .reset olderThan now => (resetStuck olderThan now e.before).1 = .error .crashed
  | .stats => (stats e.before).1 = .error .crashed
  | .upsert ids specs now => (upsertJobs ids specs now e.before).1 = .error .crashed
  | .getJob name => (Store.getJob name e.before).1 = .error .crashed
  | .listJobs => (listJobs e.before).1 = .error .crashed
  | .fire ids now limit maxAttempts => (fireDue ids now limit maxAttempts e.before).1 = .error .crashed

theorem poisoned_after (e : Event) : e.after.poisoned = true ↔ e.before.poisoned = true ∨ e.Crashes := by
  obtain ⟨call, s⟩ := e
  cases call with
  | insert tasks => exact locked_poisoned (steady_insertAll tasks) s
  | publish ids now news => exact publish_poisoned ids now news s
  | getTask id => exact locked_poisoned (steady_get.bind fun s => steady_pure _) s
  | claim pattern now =>
    refine locked_poisoned (steady_get.bind fun s => ?_) s
    cases firstOf (s.tasks.rows.filter (isClaimable pattern now)) with
    | none => exact steady_pure none
    | some first =>
      refine steady_get.bind fun s => ?_
      cases s.tasks.get? first.id with
      | none => exact steady_refuse _
      | some t => exact (steady_ofRule _).bind fun u => (steady_putTask u).bind fun _ => steady_pure (some u)
  | complete id now => exact locked_poisoned (steady_changeTask id _) s
  | fail id error now => exact locked_poisoned (steady_changeTask id _) s
  | requeue id now => exact locked_poisoned (steady_changeTask id _) s
  | reset olderThan now => exact locked_poisoned (steady_get.bind fun s => steady_resetRows olderThan now _) s
  | stats => exact locked_poisoned (steady_get.bind fun s => steady_pure _) s
  | upsert ids specs now => exact upsertJobs_poisoned ids specs now s
  | getJob name => exact locked_poisoned (steady_get.bind fun s => steady_pure _) s
  | listJobs => exact locked_poisoned (steady_get.bind fun s => steady_pure _) s
  | fire ids now limit maxAttempts =>
    refine locked_poisoned (steady_get.bind fun s => (steady_ofOutcome _).bind fun fired => ?_) s
    exact (steady_insertAll _).bind fun _ => (steady_putJobs fired).bind fun _ => steady_pure fired

end Event

/-- A store that a run leaves is poisoned if it has been so from the beginning, or if a call of the run has crashed. -/
theorem Run.poisoned_iff {s s' : Store} {es : List Event} (run : Run s es s') :
    s'.poisoned = true ↔ s.poisoned = true ∨ ∃ e ∈ es, e.Crashes := by
  induction run with
  | nil s => simp
  | cons e _ ih => simp only [ih, e.poisoned_after, or_assoc, List.mem_cons, exists_eq_or_imp]
  | reorder order _ ih => rw [ih, order.poisoned]

end Store
end DurableQueue
