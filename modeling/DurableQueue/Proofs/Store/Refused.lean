import DurableQueue.Proofs.Store.Lock

/-! A call that is refused leaves the store as it was. Each call has its own way to see to that: a batch is looked at before
    it is written, one task is changed on the side and written back, a tick fires all jobs before it writes anything. A
    claim and a pass over stuck tasks work on the rows in place; they are refused by a poisoned store alone. -/

namespace DurableQueue

theorem refused_map {ε δ α β : Type} {r : Outcome ε α} {f : α → β} {g : ε → δ}
    (h : ∃ fault, (r.map f).mapError (·.map g) = .error (.refused fault)) : ∃ cause, r = .error (.refused cause) := by
  obtain ⟨fault, h⟩ := h
  rcases r with (cause | _) | a
  · exact ⟨cause, rfl⟩
  · cases h
  · cases h

namespace StoreM
variable {ε α : Type}

/-- Whatever refuses the call, it leaves the store as it was. -/
def Atomic (call : Store → Outcome ε α × Store) : Prop :=
  ∀ s, (∃ fault, (call s).1 = .error (.refused fault)) → (call s).2 = s

theorem Atomic.locked {call : StoreM α} (h : Atomic call) : Atomic (locked call) := by
  rintro s ⟨fault, refused⟩
  have kept := h s
  rw [locked_apply] at refused ⊢
  by_cases poisoned : s.poisoned = true
  · rw [if_pos poisoned]
  · rw [if_neg poisoned] at refused ⊢
    rcases hs : call s with ⟨(cause | _) | a, t⟩
    · rw [hs] at kept
      exact kept ⟨cause, rfl⟩
    · rw [hs] at refused
      cases refused
    · rw [hs] at refused
      cases refused

theorem atomic_look (look : Store → α) : Atomic (locked do return look (← get)) :=
  fun s _ => look_store look s

end StoreM

namespace Store
open StoreM

theorem atomic_insertTasks (tasks : List Task) : Atomic (insertTasks tasks) := by
  refine Atomic.locked fun s ⟨fault, refused⟩ => ?_
  rw [insertAll_apply] at refused ⊢
  cases h : checkBatch s.tasks [] tasks with
  | error cause => rfl
  | ok _ =>
    rw [h] at refused
    cases refused

theorem atomic_publish (ids : Nat → TaskId) (now : Instant) (news : List NewTask) : Atomic (publish ids now news) := by
  intro s refused
  cases valid : Queue.validate now news with
  | error fault => rw [publish_refused valid]
  | ok _ =>
    cases news with
    | nil => rfl
    | cons new rest =>
      rw [publish_apply valid] at refused ⊢
      exact atomic_insertTasks _ s (refused_map refused)

theorem atomic_claimNext (pattern : Pattern) (now : Instant) : Atomic (claimNext pattern now) := by
  rintro s ⟨fault, refused⟩
  rcases claimNext_cases pattern now s with ⟨-, hs⟩ | ⟨-, -, hs⟩ | ⟨-, _, _, -, -, hs⟩
  · rw [hs]
  · rw [hs]
  · rw [hs] at refused
    cases refused

theorem atomic_changeTask {α : Type} (id : TaskId) (change : Task → Outcome Refusal (Task × α)) :
    Atomic (changeTask id change) := by
  rintro s ⟨fault, refused⟩
  rw [changeTask_apply] at refused ⊢
  by_cases poisoned : s.poisoned = true
  · rw [if_pos poisoned]
  · rw [if_neg poisoned] at refused ⊢
    cases stored : s.tasks.get? id with
    | none => rfl
    | some t =>
      rw [stored] at refused
      rcases changed : change t with (cause | _) | ⟨u, a⟩
      · simp only [changed]
      · simp [changed] at refused
      · simp [changed] at refused

theorem atomic_resetStuck (olderThan now : Instant) : Atomic (resetStuck olderThan now) := by
  rintro s ⟨fault, refused⟩
  rw [resetStuck_apply] at refused ⊢
  split at refused
  · rw [if_pos ‹_›]
  · cases refused

/-- What has been validated is not refused any more, so no job has been written in front of a refusal. -/
theorem atomic_upsertFrom (ids : Nat → JobId) (now : Instant) (place : Nat) (specs : List JobSpec) :
    Atomic (upsertFrom ids now place specs) := by
  rintro s ⟨fault, refused⟩
  by_cases goes : now.add? (.ofSeconds 1) = none
  · cases specs with
    | nil => rfl
    | cons spec rest =>
      rw [upsertFrom, bind_apply, upsertJob_crash goes] at refused
      cases refused
  · obtain ⟨made, jobs, hs, -⟩ := upsertFrom_ok goes ids place specs s
    rw [hs] at refused
    cases refused

theorem atomic_upsertJobs (ids : Nat → JobId) (specs : List JobSpec) (now : Instant) :
    Atomic (upsertJobs ids specs now) := by
  unfold upsertJobs
  rintro s ⟨fault, refused⟩
  rw [bind_apply] at refused ⊢
  cases valid : specs.forM JobSpec.validate with
  | error cause => rfl
  | ok _ =>
    rw [valid] at refused
    exact (atomic_upsertFrom ids now 0 specs).locked s ⟨fault, refused⟩

theorem atomic_fireDue (ids : Nat → TaskId) (now : Instant) (limit maxAttempts : Nat) :
    Atomic (fireDue ids now limit maxAttempts) := by
  rintro s ⟨fault, refused⟩
  rw [fireDue_apply] at refused ⊢
  by_cases poisoned : s.poisoned = true
  · rw [if_pos poisoned]
  · rw [if_neg poisoned] at refused ⊢
    rcases fires : fireFrom ids now maxAttempts 0 (selectDue s.jobs.rows now limit) with (cause | _) | fired
    · rfl
    · rw [fires] at refused
      cases refused
    · rw [fires] at refused
      cases check : checkBatch s.tasks [] (fired.map (·.fire.task)) with
      | error cause => simp only [check]
      | ok _ => simp [check] at refused

namespace Event

/-- The call is refused: it answers with a fault, and does not crash. -/
def Refused (e : Event) : Prop :=
  match e.call with
  | .insert tasks => ∃ fault, (insertTasks tasks e.before).1 = .error (.refused fault)
  | .publish ids now news => ∃ fault, (publish ids now news e.before).1 = .error (.refused fault)
  | .getTask id => ∃ fault, (Store.getTask id e.before).1 = .error (.refused fault)
  | .claim pattern now => ∃ fault, (claimNext pattern now e.before).1 = .error (.refused fault)
  | .complete id now => ∃ fault, (complete id now e.before).1 = .error (.refused fault)
  | .fail id error now => ∃ fault, (failAttempt id error now e.before).1 = .error (.refused fault)
  | .requeue id now => ∃ fault, (requeue id now e.before).1 = .error (.refused fault)
  | .reset olderThan now => ∃ fault, (resetStuck olderThan now e.before).1 = .error (.refused fault)
  | .stats => ∃ fault, (stats e.before).1 = .error (.refused fault)
  | .upsert ids specs now => ∃ fault, (upsertJobs ids specs now e.before).1 = .error (.refused fault)
  | .getJob name => ∃ fault, (Store.getJob name e.before).1 = .error (.refused fault)
  | .listJobs => ∃ fault, (listJobs e.before).1 = .error (.refused fault)
  | .fire ids now limit maxAttempts => ∃ fault, (fireDue ids now limit maxAttempts e.before).1 = .error (.refused fault)

theorem after_of_refused {e : Event} (h : e.Refused) : e.after = e.before := by
  obtain ⟨call, s⟩ := e
  cases call with
  | insert tasks => exact atomic_insertTasks tasks s h
  | publish ids now news => exact atomic_publish ids now news s h
  | getTask id => exact atomic_look _ s h
  | claim pattern now => exact atomic_claimNext pattern now s h
  | complete id now => exact atomic_changeTask id _ s h
  | fail id error now => exact atomic_changeTask id _ s h
  | requeue id now => exact atomic_changeTask id _ s h
  | reset olderThan now => exact atomic_resetStuck olderThan now s h
  | stats => exact atomic_look _ s h
  | upsert ids specs now => exact atomic_upsertJobs ids specs now s h
  | getJob name => exact atomic_look _ s h
  | listJobs => exact atomic_look _ s h
  | fire ids now limit maxAttempts => exact atomic_fireDue ids now limit maxAttempts s h

end Event

/-- A call that is refused leaves the store as it was. In a store that is not poisoned every claim and every pass over
    stuck tasks has an answer. -/
theorem refused_harmless (s : Store) :
    (∀ call, Event.Refused ⟨call, s⟩ → call.after s = s) ∧
    (s.poisoned = false →
      (∀ pattern now, ∃ answer, (claimNext pattern now s).1 = .ok answer) ∧
      ∀ olderThan now, ∃ count, (resetStuck olderThan now s).1 = .ok count) := by
  refine ⟨fun call refused => Event.after_of_refused refused, fun healthy => ⟨fun pattern now => ?_, fun olderThan now => ?_⟩⟩
  · rcases claimNext_cases pattern now s with ⟨poisoned, -⟩ | ⟨-, -, hs⟩ | ⟨-, _, u, -, -, hs⟩
    · cases healthy.symm.trans poisoned
    · exact ⟨none, by rw [hs]⟩
    · exact ⟨some u, by rw [hs]⟩
  · rw [resetStuck_apply, if_neg (by rw [healthy]; nofun)]
    exact ⟨_, rfl⟩

theorem refused_harmless_conflict :
    ∃ s tasks, s.poisoned = false ∧ Event.Refused ⟨.insert tasks, s⟩ ∧ (Call.insert tasks).after s = s ∧
      (∃ answer, (claimNext anySubject .epoch s).1 = .ok answer) ∧
      ∃ count, (resetStuck .epoch .epoch s).1 = .ok count := by
  let s : Store := Call.afterAll [.publish TaskId.made .epoch [.of "a" []]] {}
  let tasks : List Task := [.create (.made 1) (.of "b" []) .epoch, .create (.made 0) (.of "c" []) .epoch]
  have healthy : s.poisoned = false := by decide
  have refused : Event.Refused ⟨.insert tasks, s⟩ := ⟨.taskExists (.made 0), rfl⟩
  obtain ⟨unchanged, answered⟩ := refused_harmless s
  obtain ⟨claims, resets⟩ := answered healthy
  exact ⟨s, tasks, healthy, refused, unchanged _ refused, claims anySubject .epoch, resets .epoch .epoch⟩

end Store
end DurableQueue
