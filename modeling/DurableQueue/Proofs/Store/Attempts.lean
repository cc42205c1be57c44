import DurableQueue.Proofs.Store.Sound

/-! The count of attempts is what the history of a task makes it. A task is set back by an attempt that fails and by a
    call that puts it back, and by nothing else: a failure with another attempt to come counts one up, and a task that is
    put back has one taken off, as long as there is one. The limit is looked at before the count grows, so that a task
    fails for good at the failure that comes after as many retries as it may have. -/

namespace DurableQueue

/-- What sets a task back. -/
inductive Setback where
  /-- An attempt has failed. -/
  | failure (verdict : Verdict)
  /-- The task was put back. -/
  | requeue
  deriving DecidableEq

namespace Setback

/-- The count of attempts after a setback. -/
def recount : Setback → Nat → Nat
  | failure (.retry _), n => n + 1
  | failure .failed, n => n
  | requeue, n => n - 1

/-- The failures that still count after a setback, the last one included. -/
def respend : Setback → Nat → Nat
  | failure _, n => n + 1
  | requeue, n => n - 1

def isFailure : Setback → Bool
  | failure _ => true
  | requeue => false

/-- The count of attempts that setbacks lead to, one after the other. -/
def attempts (history : List Setback) : Nat := history.foldl (fun n b => b.recount n) 0

/-- The attempts that have failed. -/
def failures (history : List Setback) : Nat := history.countP isFailure

/-- How often the task was put back. -/
def requeues (history : List Setback) : Nat := history.count requeue

/-- Each failure counts, and each time that the task is put back at most one of them is taken off. -/
theorem respend_bounds (history : List Setback) (n : Nat) :
    history.foldl (fun n b => b.respend n) n ≤ n + failures history ∧
      n + failures history ≤ history.foldl (fun n b => b.respend n) n + requeues history := by
  induction history generalizing n with
  | nil => simp [failures, requeues]
  | cons b rest ih =>
    cases b with
    | failure verdict =>
      have step : (failure verdict :: rest).foldl (fun n b => b.respend n) n =
          rest.foldl (fun n b => b.respend n) (n + 1) := rfl
      have counted : failures (failure verdict :: rest) = failures rest + 1 := List.countP_cons_of_pos rfl
      have same : requeues (failure verdict :: rest) = requeues rest := List.count_cons_of_ne (by simp)
      have tail := ih (n + 1)
      rw [step, counted, same]
      omega
    | requeue =>
      have step : (requeue :: rest).foldl (fun n b => b.respend n) n =
          rest.foldl (fun n b => b.respend n) (n - 1) := rfl
      have same : failures (requeue :: rest) = failures rest := List.countP_cons_of_neg (by simp [isFailure])
      have counted : requeues (requeue :: rest) = requeues rest + 1 := List.count_cons_self
      have tail := ih (n - 1)
      rw [step, counted, same]
      omega

end Setback

/-- The failures that still count: the attempts, and the one on which the task has failed for good. -/
def Task.spent (t : Task) : Nat := t.attempts + if t.status = .failed then 1 else 0

namespace Store
variable {s s' : Store} {e : Event} {es : List Event} {id : TaskId} {t u : Task} {b : Setback} {verdict : Verdict}

/-- How the call has set the task back, if it has. -/
def Event.setback? (e : Event) (id : TaskId) : Option Setback :=
  match e.call with
  | .fail id' error now => if id' = id then (failAttempt id' error now e.before).1.toOption.map .failure else none
  | .requeue id' now => if id' = id then (requeue id' now e.before).1.toOption.map fun _ => .requeue else none
  | _ => none

/-- All setbacks of a task, the latest last. -/
def history (id : TaskId) (es : List Event) : List Setback := es.filterMap (·.setback? id)

/-! ### One call -/

namespace Event

theorem setback?_eq_failure (h : e.setback? id = some (.failure verdict)) :
    ∃ error now, e.call = .fail id error now ∧ (failAttempt id error now e.before).1 = .ok verdict := by
  unfold setback? at h
  split at h
  · next id' error now call =>
    split at h
    · next same =>
      obtain rfl := same
      refine ⟨error, now, call, ?_⟩
      cases answer : (failAttempt id' error now e.before).1 <;> simp_all [Except.toOption]
    · cases h
  · split at h
    · simp at h
    · cases h
  · cases h

theorem setback?_eq_requeue (h : e.setback? id = some .requeue) : ∃ now, e.Requeues id now := by
  unfold setback? at h
  split at h
  · split at h
    · simp at h
    · cases h
  · next id' now call =>
    split at h
    · next same =>
      obtain rfl := same
      refine ⟨now, call, ?_⟩
      cases answer : (requeue id' now e.before).1 <;> simp_all [Except.toOption]
    · cases h
  · cases h

theorem setback?_of_failAttempt {error : String} {now : Instant} (call : e.call = .fail id error now)
    (answer : (failAttempt id error now e.before).1 = .ok verdict) : e.setback? id = some (.failure verdict) := by
  simp [setback?, call, answer, Except.toOption]

theorem Requeues.setback? {now : Instant} (h : e.Requeues id now) : e.setback? id = some .requeue := by
  simp [Event.setback?, h.1, h.2, Except.toOption]

/-- What a call does to the count of a task, and to the failures that count, is told by the setback alone. -/
theorem recount_of_moved (before : e.before.tasks.get? id = some t) (after : e.after.tasks.get? id = some u) :
    u.attempts = (e.setback? id).elim t.attempts (·.recount t.attempts) ∧
      u.spent = (e.setback? id).elim t.spent (·.respend t.spent) := by
  cases set : e.setback? id with
  | none =>
    -- The task has moved by no failure and was not put back, for the call would have answered so.
    obtain ⟨v, hv, move⟩ := Event.get?_after before
    obtain rfl := Option.some.inj (after.symm.trans hv)
    obtain rfl := Table.key_of_get? before
    cases move with
    | kept => exact ⟨rfl, rfl⟩
    | claimed _ moved _ =>
      obtain ⟨pending, rfl⟩ := Task.claim_eq_ok.mp moved
      simp [Task.spent, pending]
    | completed moved =>
      obtain ⟨running, rfl⟩ := Task.complete_eq_ok.mp moved
      simp [Task.spent, running]
    | failed _ answer => exact absurd (set.symm.trans (setback?_of_failAttempt rfl answer)) nofun
    | requeued _ answer => exact absurd (set.symm.trans (Requeues.setback? ⟨rfl, answer⟩)) nofun
    | reset _ moved =>
      obtain ⟨running, rfl⟩ := Task.resetStuck_eq_ok.mp moved
      simp [Task.spent, running]
  | some b =>
    cases b with
    | failure verdict =>
      obtain ⟨error, now, call, answer⟩ := setback?_eq_failure set
      obtain ⟨v, w, hv, moved, hw⟩ := moved_of_failAttempt call answer
      obtain rfl := Option.some.inj (before.symm.trans hv)
      obtain rfl := Option.some.inj (after.symm.trans hw)
      obtain ⟨running, ⟨-, rfl, rfl⟩ | ⟨-, _, -, rfl, rfl⟩⟩ := Task.failAttempt_eq_ok.mp moved
      · simp [Task.spent, Setback.recount, Setback.respend, running]
      · simp [Task.spent, Setback.recount, Setback.respend, running]
    | requeue =>
      obtain ⟨now, requeues⟩ := setback?_eq_requeue set
      obtain ⟨v, w, hv, moved, hw⟩ := requeues.moved
      obtain rfl := Option.some.inj (before.symm.trans hv)
      obtain rfl := Option.some.inj (after.symm.trans hw)
      obtain ⟨live, _, -, rfl⟩ := Task.requeue_eq_ok.mp moved
      have unfailed : t.status ≠ .failed := fun failed => by
        rw [failed] at live
        cases live
      simp [Task.spent, Setback.recount, Setback.respend, unfailed]

/-- Only a task that is there is set back. -/
theorem setback?_eq_none (h : e.before.tasks.get? id = none) : e.setback? id = none := by
  cases set : e.setback? id with
  | none => rfl
  | some b =>
    cases b with
    | failure verdict =>
      obtain ⟨error, now, call, answer⟩ := setback?_eq_failure set
      obtain ⟨t, -, ht, -, -⟩ := moved_of_failAttempt call answer
      cases h.symm.trans ht
    | requeue =>
      obtain ⟨now, requeues⟩ := setback?_eq_requeue set
      obtain ⟨t, -, ht, -, -⟩ := requeues.moved
      cases h.symm.trans ht

end Event

/-! ### Runs -/

/-- A number that belongs to a task, and zero as long as the task is not there. -/
def measure (f : Task → Nat) (id : TaskId) (s : Store) : Nat := ((s.tasks.get? id).map f).getD 0

theorem measure_of_get? {f : Task → Nat} (h : s.tasks.get? id = some t) : measure f id s = f t := by
  rw [measure, h]
  rfl

theorem measure_reordered (f : Task → Nat) (id : TaskId) (order : Reordered s s') : measure f id s' = measure f id s := by
  rw [measure, order.getTask, measure]

theorem Event.measure_after {f : Task → Nat} {count : Setback → Nat → Nat} (queued : ∀ tasks, e.call ≠ .insert tasks)
    (new : ∀ id new now, f (.create id new now) = 0)
    (moved : ∀ {t u}, e.before.tasks.get? id = some t → e.after.tasks.get? id = some u →
      f u = (e.setback? id).elim (f t) (count · (f t))) :
    measure f id e.after = (e.setback? id).elim (measure f id e.before) (count · (measure f id e.before)) := by
  cases before : e.before.tasks.get? id with
  | some t =>
    obtain ⟨u, after, -⟩ := Event.get?_after before
    rw [measure_of_get? before, measure_of_get? after, moved before after]
  | none =>
    rw [setback?_eq_none before]
    show measure f id e.after = measure f id e.before
    have absent : measure f id e.before = 0 := by rw [measure, before]; rfl
    rw [absent]
    cases after : e.after.tasks.get? id with
    | none => rw [measure, after]; rfl
    | some u =>
      rw [measure_of_get? after]
      rcases Event.mem_after (Table.mem_of_get? after) with ⟨t, ht, move⟩ | inserted
      · -- A task that has moved was there under its identifier.
        rw [← Table.key_of_get? after, move.id_eq, Table.get?_key ht] at before
        cases before
      · obtain ⟨id', new', now, rfl⟩ := Event.inserted_created queued inserted
        exact new id' new' now

theorem Run.measure_eq (id : TaskId) (f : Task → Nat) (count : Setback → Nat → Nat) (run : Run s es s')
    (queued : ∀ e ∈ es, ∀ tasks, e.call ≠ .insert tasks)
    (new : ∀ id new now, f (.create id new now) = 0)
    (moved : ∀ {e : Event} {t u}, e.before.tasks.get? id = some t → e.after.tasks.get? id = some u →
      f u = (e.setback? id).elim (f t) (count · (f t))) :
    measure f id s' = (history id es).foldl (fun n b => count b n) (measure f id s) := by
  induction run with
  | nil => rfl
  | cons e _ ih =>
    have step := Event.measure_after (e := e) (queued e List.mem_cons_self) new moved
    rw [ih fun e' he' => queued e' (List.mem_cons_of_mem e he'), step, history, history, List.filterMap_cons]
    cases e.setback? id <;> rfl
  | reorder order _ ih => rw [ih queued, measure_reordered f id order]

theorem Run.attempts_eq (run : Run {} es s) (queued : ∀ e ∈ es, ∀ tasks, e.call ≠ .insert tasks)
    (h : s.tasks.get? id = some t) : t.attempts = Setback.attempts (history id es) := by
  have counted := run.measure_eq id Task.attempts Setback.recount queued (fun _ _ _ => rfl)
    fun before after => (Event.recount_of_moved before after).1
  rwa [measure_of_get? h] at counted

theorem Run.spent_bounds (run : Run {} es s) (queued : ∀ e ∈ es, ∀ tasks, e.call ≠ .insert tasks)
    (h : s.tasks.get? id = some t) :
    t.spent ≤ Setback.failures (history id es) ∧
      Setback.failures (history id es) ≤ t.spent + Setback.requeues (history id es) := by
  have counted := run.measure_eq id Task.spent Setback.respend queued (fun _ _ _ => rfl)
    fun before after => (Event.recount_of_moved before after).2
  rw [measure_of_get? h] at counted
  have bounds := Setback.respend_bounds (history id es) 0
  rw [Nat.zero_add] at bounds
  rw [counted]
  exact bounds

/-- An attempt is told to be the last one where the task has used up those that it may have. -/
theorem failAttempt_failed_iff {error : String} {now : Instant} (h : s.tasks.get? id = some t) :
    (failAttempt id error now s).1 = .ok .failed ↔
      s.poisoned = false ∧ t.status = .running ∧ t.maxAttempts ≤ t.attempts := by
  unfold failAttempt
  constructor
  · intro answer
    rcases changeTask_cases id (fun t => t.failAttempt error now) s with
      ⟨_, _, hs⟩ | ⟨isOpen, u, v, verdict, hu, moved, hs⟩
    · simp [hs] at answer
    · obtain rfl := Option.some.inj (h.symm.trans hu)
      obtain rfl : verdict = .failed := by simpa [hs] using answer
      obtain ⟨running, ⟨spent, -, -⟩ | ⟨-, _, -, ⟨⟩, -⟩⟩ := Task.failAttempt_eq_ok.mp moved
      exact ⟨isOpen, running, spent⟩
  · rintro ⟨isOpen, running, spent⟩
    have moved : t.failAttempt error now = .ok (_, .failed) :=
      Task.failAttempt_eq_ok.mpr ⟨running, Or.inl ⟨spent, rfl, rfl⟩⟩
    simp [changeTask_apply, isOpen, h, moved]

/-- At each point of a run from the empty store a task has the attempts that its setbacks so far make, if tasks came in
    through the queue and from cron jobs only. A failure is told to be the last one exactly when these are as many as
    the task may have. A task that has failed for good has had more failures than that, and if it was never put back it
    fails on the first of them that is one too many. -/
theorem attempts_accounted (run : Run {} es s) (queued : ∀ e ∈ es, ∀ tasks, e.call ≠ .insert tasks)
    (h : s.tasks.get? id = some t) :
    t.attempts = Setback.attempts (history id es) ∧
    (∀ error now, (failAttempt id error now s).1 = .ok .failed ↔
      s.poisoned = false ∧ t.status = .running ∧ Setback.attempts (history id es) = t.maxAttempts) ∧
    (t.status = .failed → t.maxAttempts + 1 ≤ Setback.failures (history id es)) ∧
    (Setback.requeues (history id es) = 0 →
      Setback.failures (history id es) ≤ t.maxAttempts + 1 ∧
      (t.status = .failed ↔ Setback.failures (history id es) = t.maxAttempts + 1)) := by
  have sound : t.Sound :=
    run.sound (fun e he t ht => Event.inserted_sound (queued e he) ht) nofun t (Table.mem_of_get? h)
  have counted := run.attempts_eq queued h
  obtain ⟨least, most⟩ := run.spent_bounds queued h
  have within := sound.attempts_le
  refine ⟨counted, fun error now => ?_, fun failed => ?_, fun never => ?_⟩
  · have full : t.maxAttempts ≤ t.attempts ↔ t.attempts = t.maxAttempts := by omega
    rw [failAttempt_failed_iff h, ← counted, full]
  · have full := (sound.failed failed).1
    rw [Task.spent, if_pos failed] at least
    omega
  · -- Nothing was taken off, so the failures are the attempts and the last failure.
    have spent : Setback.failures (history id es) = t.attempts + if t.status = .failed then 1 else 0 := by
      rw [← Task.spent]
      omega
    by_cases failed : t.status = .failed
    · have full := (sound.failed failed).1
      rw [if_pos failed, full] at spent
      exact ⟨Nat.le_of_eq spent, fun _ => spent, fun _ => failed⟩
    · rw [if_neg failed] at spent
      exact ⟨by omega, fun failed' => absurd failed' failed, fun _ => by omega⟩

/-- A task with one retry, which is put back after its first failure and so has another one. -/
def Call.spared : List Call :=
  [.publish TaskId.made .epoch [{ NewTask.of "a" [] with maxAttempts := 1 }], .claim anySubject .epoch,
    .fail (.made 0) "no" .epoch, .claim anySubject ⟨20, 0⟩, .requeue (.made 0) ⟨20, 0⟩, .claim anySubject ⟨30, 0⟩,
    .fail (.made 0) "no" ⟨30, 0⟩, .claim anySubject ⟨50, 0⟩, .fail (.made 0) "no" ⟨50, 0⟩]

theorem attempts_accounted_spared :
    (∃ t, (Call.afterAll Call.spared {}).tasks.get? (.made 0) = some t ∧ t.status = .failed ∧ t.maxAttempts = 1 ∧
      t.maxAttempts + 1 ≤ Setback.failures (history (.made 0) (Call.events Call.spared {})) ∧
      Setback.failures (history (.made 0) (Call.events Call.spared {})) = 3) ∧
    ∃ t, (Call.afterAll (Call.spared.take 3) {}).tasks.get? (.made 0) = some t ∧ t.attempts = 1 ∧
      Setback.requeues (history (.made 0) (Call.events (Call.spared.take 3) {})) = 0 ∧
      Setback.failures (history (.made 0) (Call.events (Call.spared.take 3) {})) ≤ t.maxAttempts + 1 := by
  have queued : ∀ e ∈ Call.events Call.spared {}, ∀ tasks, e.call ≠ .insert tasks := by
    simp [Call.spared, Call.events]
  have queued' : ∀ e ∈ Call.events (Call.spared.take 3) {}, ∀ tasks, e.call ≠ .insert tasks := by
    simp [Call.spared, Call.events]
  constructor
  · have last : ((Call.afterAll Call.spared {}).tasks.get? (.made 0)).map (fun t => (t.status, t.maxAttempts)) =
        some (.failed, 1) := by decide +kernel
    obtain ⟨t, found, same⟩ := Option.map_eq_some_iff.mp last
    obtain ⟨failed, limit⟩ := Prod.mk.inj same
    exact ⟨t, found, failed, limit, (attempts_accounted (.of_calls Call.spared {}) queued found).2.2.1 failed,
      by decide +kernel⟩
  · have waiting : ((Call.afterAll (Call.spared.take 3) {}).tasks.get? (.made 0)).map Task.attempts = some 1 := by
      decide +kernel
    obtain ⟨t, found, one⟩ := Option.map_eq_some_iff.mp waiting
    have never : Setback.requeues (history (.made 0) (Call.events (Call.spared.take 3) {})) = 0 := by decide +kernel
    exact ⟨t, found, one, never, ((attempts_accounted (.of_calls (Call.spared.take 3) {}) queued' found).2.2.2 never).1⟩

end Store
end DurableQueue
