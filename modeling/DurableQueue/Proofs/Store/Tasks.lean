import DurableQueue.Proofs.Table
import DurableQueue.Proofs.Task.Transition
import DurableQueue.Store.Tasks

/-! What the calls that concern tasks answer and what they leave in the store. Each call is described once, for every
    store and all arguments: when it is refused, when it crashes, and which rows it writes. -/

namespace DurableQueue

/-! ### Calls in general -/

namespace StoreM

section
variable {α β : Type}

theorem bind_apply (x : StoreM α) (f : α → StoreM β) (s : Store) :
    (x >>= f) s = match x s with
      | (.ok a, t) => f a t
      | (.error h, t) => (.error h, t) := by
  have run : (x >>= f) s = ExceptT.bindCont f (x s).1 (x s).2 := rfl
  rw [run]
  rcases x s with ⟨_ | _, t⟩
  · rfl
  · rfl

theorem pure_apply (a : α) (s : Store) : (pure a : StoreM α) s = (.ok a, s) := rfl

theorem get_apply (s : Store) : (get : StoreM Store) s = (.ok s, s) := rfl

theorem putTask_apply (t : Task) (s : Store) : putTask t s = (.ok (), { s with tasks := s.tasks.put t }) := rfl

theorem putJob_apply (j : Job) (s : Store) : putJob j s = (.ok (), { s with jobs := s.jobs.put j }) := rfl

theorem ofRule_ok (a : α) (s : Store) : (ofRule (.ok a) : StoreM α) s = (.ok a, s) := rfl

theorem ofOutcome_ok (a : α) (s : Store) : (ofOutcome (.ok a) : StoreM α) s = (.ok a, s) := rfl

theorem ofOutcome_apply (r : Outcome Refusal α) (s : Store) : ofOutcome r s = (r.mapError (·.map .refused), s) := by
  cases r <;> rfl

/-- A poisoned store answers nothing; of an open one only a crash is noted. -/
theorem locked_apply (call : StoreM α) (s : Store) :
    locked call s = if s.poisoned then (.error (.refused .poisoned), s)
      else match call s with
        | (.error .crashed, after) => (.error .crashed, { after with poisoned := true })
        | result => result := rfl

/-- A call that only looks leaves the store as it is, and is refused by a poisoned one alone. -/
theorem look_apply (look : Store → α) (s : Store) :
    (locked do return look (← get)) s = if s.poisoned then (.error (.refused .poisoned), s) else (.ok (look s), s) := rfl

theorem look_store (look : Store → α) (s : Store) : ((locked do return look (← get)) s).2 = s := by
  rw [look_apply]
  split <;> rfl

theorem forM_putTask_apply (tasks : List Task) (s : Store) :
    tasks.forM putTask s = (.ok (), { s with tasks := tasks.foldl Table.put s.tasks }) := by
  induction tasks generalizing s with
  | nil => rfl
  | cons t rest ih =>
    show (putTask t >>= fun _ => rest.forM putTask) s = _
    rw [bind_apply, putTask_apply]
    exact ih _

end

end StoreM

namespace Store
open StoreM

variable {s : Store} {id : TaskId} {now : Instant}

/-! ### Writing new tasks -/

theorem checkBatch_eq_ok_iff {stored : Table Task.id} {seen : List TaskId} {tasks : List Task} :
    checkBatch stored seen tasks = .ok () ↔
      (∀ t ∈ tasks, stored.get? t.id = none ∧ t.id ∉ seen ∧ t.subject ≠ "") ∧ (tasks.map (·.id)).Nodup := by
  induction tasks generalizing seen with
  | nil => simp [checkBatch]
  | cons t rest ih =>
    by_cases known : stored.contains t.id = true ∨ t.id ∈ seen
    · have : ¬(stored.get? t.id = none ∧ t.id ∉ seen) := by
        rw [Table.get?_eq_none_iff, ← Table.contains_iff]
        exact fun h => known.elim h.1 h.2
      simp only [checkBatch, if_pos known, reduceCtorEq, List.forall_mem_cons, false_iff]
      exact fun h => this ⟨h.1.1.1, h.1.1.2.1⟩
    · have fresh : stored.get? t.id = none ∧ t.id ∉ seen := by
        rw [Table.get?_eq_none_iff, ← Table.contains_iff]
        exact not_or.mp known
      by_cases blank : t.subject = ""
      · simp [checkBatch, if_neg known, blank]
      · rw [checkBatch, if_neg known, if_neg blank, ih, List.forall_mem_cons, List.map_cons, List.nodup_cons,
          List.mem_map]
        simp only [List.mem_cons, not_or]
        constructor
        · rintro ⟨all, nodup⟩
          exact ⟨⟨⟨fresh.1, fresh.2, blank⟩, fun u hu => ⟨(all u hu).1, (all u hu).2.1.2, (all u hu).2.2⟩⟩,
            fun ⟨u, hu, e⟩ => (all u hu).2.1.1 e, nodup⟩
        · rintro ⟨⟨-, all⟩, new, nodup⟩
          exact ⟨fun u hu => ⟨(all u hu).1, ⟨fun e => new ⟨u, hu, e⟩, (all u hu).2.1⟩, (all u hu).2.2⟩, nodup⟩

theorem insertAll_apply (tasks : List Task) (s : Store) :
    insertAll tasks s = match checkBatch s.tasks [] tasks with
      | .error fault => (.error (.refused fault), s)
      | .ok () => (.ok (), { s with tasks := tasks.foldl Table.put s.tasks }) := by
  unfold insertAll
  rw [bind_apply, get_apply]
  show (match checkBatch s.tasks [] tasks with
    | .error fault => refuse fault
    | .ok () => tasks.forM putTask : StoreM Unit) s = _
  cases checkBatch s.tasks [] tasks with
  | error fault => rfl
  | ok _ => exact forM_putTask_apply tasks s

/-! ### Claiming -/

theorem mem_of_firstOf {tasks : List Task} {t : Task} (h : firstOf tasks = some t) : t ∈ tasks := by
  induction tasks generalizing t with
  | nil => cases h
  | cons u rest ih =>
    rw [firstOf] at h
    cases hr : firstOf rest with
    | none =>
      rw [hr] at h
      cases h
      exact List.mem_cons_self
    | some v =>
      simp only [hr, Option.some.injEq] at h
      subst h
      split
      · exact List.mem_cons_of_mem u (ih hr)
      · exact List.mem_cons_self

theorem firstOf_eq_none_iff {tasks : List Task} : firstOf tasks = none ↔ tasks = [] := by
  cases tasks with
  | nil => simp [firstOf]
  | cons t rest => cases h : firstOf rest <;> simp [firstOf, h]

theorem isClaimable_iff {pattern : Pattern} {t : Task} :
    isClaimable pattern now t = true ↔ t.isDue now = true ∧ pattern.accepts t.subject = true := by
  simp [isClaimable]

/-- A claim of an open store is never refused: it takes the first task that can be claimed, if there is one. -/
theorem claimNext_cases (pattern : Pattern) (now : Instant) (s : Store) :
    s.poisoned = true ∧ claimNext pattern now s = (.error (.refused .poisoned), s) ∨
    s.poisoned = false ∧ s.tasks.rows.filter (isClaimable pattern now) = [] ∧
      claimNext pattern now s = (.ok none, s) ∨
    s.poisoned = false ∧ ∃ t u, firstOf (s.tasks.rows.filter (isClaimable pattern now)) = some t ∧
      t.claim now = .ok u ∧ claimNext pattern now s = (.ok (some u), { s with tasks := s.tasks.put u }) := by
  unfold claimNext
  rw [locked_apply]
  by_cases poisoned : s.poisoned = true
  · exact Or.inl ⟨poisoned, if_pos poisoned⟩
  · rw [if_neg poisoned, bind_apply, get_apply]
    refine Or.inr ?_
    have isOpen := Bool.eq_false_iff.mpr poisoned
    cases h : firstOf (s.tasks.rows.filter (isClaimable pattern now)) with
    | none => exact Or.inl ⟨isOpen, firstOf_eq_none_iff.mp h, by simp only [h, pure_apply]⟩
    | some t =>
      obtain ⟨member, claimable⟩ := List.mem_filter.mp (mem_of_firstOf h)
      have due := (isClaimable_iff.mp claimable).1
      have stored : s.tasks.get? t.id = some t := Table.get?_key member
      obtain ⟨u, hu⟩ : ∃ u, t.claim now = .ok u := ⟨_, Task.claim_eq_ok.mpr ⟨(Task.isDue_iff.mp due).1, rfl⟩⟩
      refine Or.inr ⟨isOpen, t, u, rfl, hu, ?_⟩
      simp only [h, stored, hu, bind_apply, get_apply, ofRule_ok, putTask_apply, pure_apply]

/-! ### Changing one task -/

section
variable {α : Type}

theorem changeTask_apply (id : TaskId) (change : Task → Outcome Refusal (Task × α)) (s : Store) :
    changeTask id change s = if s.poisoned then (.error (.refused .poisoned), s)
      else match s.tasks.get? id with
        | none => (.error (.refused (.taskNotFound id)), s)
        | some t =>
          match change t with
          | .ok (u, a) => (.ok a, { s with tasks := s.tasks.put u })
          | .error (.refused cause) => (.error (.refused (.refused cause)), s)
          | .error .crashed => (.error .crashed, { s with poisoned := true }) := by
  unfold changeTask
  rw [locked_apply]
  split
  · rfl
  · simp only [bind_apply, get_apply]
    cases s.tasks.get? id with
    | none => rfl
    | some t =>
      simp only [bind_apply, ofOutcome_apply]
      rcases change t with (cause | _) | ⟨u, a⟩ <;> rfl

/-- Either the task is there and its action succeeds, or no row is written. -/
theorem changeTask_cases (id : TaskId) (change : Task → Outcome Refusal (Task × α)) (s : Store) :
    (∃ h poisoned, changeTask id change s = (.error h, { s with poisoned })) ∨
    s.poisoned = false ∧ ∃ t u a, s.tasks.get? id = some t ∧ change t = .ok (u, a) ∧
      changeTask id change s = (.ok a, { s with tasks := s.tasks.put u }) := by
  rw [changeTask_apply]
  by_cases poisoned : s.poisoned = true
  · rw [if_pos poisoned]
    exact Or.inl ⟨_, s.poisoned, rfl⟩
  · rw [if_neg poisoned]
    cases ht : s.tasks.get? id with
    | none => exact Or.inl ⟨_, s.poisoned, rfl⟩
    | some t =>
      dsimp only
      cases hc : change t with
      | error h =>
        cases h with
        | refused cause => exact Or.inl ⟨_, s.poisoned, rfl⟩
        | crashed => exact Or.inl ⟨_, true, rfl⟩
      | ok changed => exact Or.inr ⟨Bool.eq_false_iff.mpr poisoned, t, changed.1, changed.2, rfl, hc, rfl⟩

end

/-- An action without an answer of its own. -/
theorem map_unit_eq_ok {ε : Type} {r : Except ε Task} {u : Task} {a : Unit} :
    r.map (fun t => (t, ())) = .ok (u, a) ↔ r = .ok u := by
  cases r <;> simp [Except.map]

theorem ofExcept_eq_ok {ε β : Type} {r : Except ε β} {b : β} : Outcome.ofExcept r = .ok b ↔ r = .ok b := by
  cases r <;> simp [Outcome.ofExcept]

theorem complete_cases (id : TaskId) (now : Instant) (s : Store) :
    (∃ h poisoned, complete id now s = (.error h, { s with poisoned })) ∨
    s.poisoned = false ∧ ∃ t u, s.tasks.get? id = some t ∧ t.complete now = .ok u ∧
      complete id now s = (.ok (), { s with tasks := s.tasks.put u }) :=
  (changeTask_cases id _ s).imp_right fun ⟨isOpen, t, u, _, ht, hu, hs⟩ =>
    ⟨isOpen, t, u, ht, map_unit_eq_ok.mp (ofExcept_eq_ok.mp hu), hs⟩

theorem failAttempt_cases (id : TaskId) (error : String) (now : Instant) (s : Store) :
    (∃ h poisoned, failAttempt id error now s = (.error h, { s with poisoned })) ∨
    s.poisoned = false ∧ ∃ t u verdict, s.tasks.get? id = some t ∧ t.failAttempt error now = .ok (u, verdict) ∧
      failAttempt id error now s = (.ok verdict, { s with tasks := s.tasks.put u }) :=
  changeTask_cases id _ s

theorem requeue_cases (id : TaskId) (now : Instant) (s : Store) :
    (∃ h poisoned, requeue id now s = (.error h, { s with poisoned })) ∨
    s.poisoned = false ∧ ∃ t u, s.tasks.get? id = some t ∧ t.requeue now = .ok u ∧
      requeue id now s = (.ok (), { s with tasks := s.tasks.put u }) :=
  (changeTask_cases id _ s).imp_right fun ⟨isOpen, t, u, _, ht, hu, hs⟩ =>
    ⟨isOpen, t, u, ht, map_unit_eq_ok.mp hu, hs⟩

/-! ### Putting back stuck tasks -/

/-- What becomes of a task in a pass over stuck ones. -/
def freed (olderThan now : Instant) (t : Task) : Task :=
  if t.isStuck olderThan then { t with status := .pending, runAfter := t.runAfter.later now, updatedAt := now } else t

theorem freed_id (olderThan now : Instant) (t : Task) : (freed olderThan now t).id = t.id := by
  unfold freed
  split <;> rfl

theorem resetStuck_freed {olderThan : Instant} {t : Task} (h : t.isStuck olderThan = true) :
    t.resetStuck now = .ok (freed olderThan now t) :=
  Task.resetStuck_eq_ok.mpr ⟨(Task.isStuck_iff.mp h).1, if_pos h⟩

/-- A pass that has come through the rows in front leaves those behind for the rest of it. -/
theorem resetRows_apply (olderThan now : Instant) {front back : List Task} (h : s.tasks.rows = front ++ back) :
    ∃ T : Table Task.id, T.rows = front ++ back.map (freed olderThan now) ∧
      resetRows olderThan now back s = (.ok (back.countP (·.isStuck olderThan)), { s with tasks := T }) := by
  induction back generalizing s front with
  | nil => exact ⟨s.tasks, h, rfl⟩
  | cons t rest ih =>
    by_cases stuck : t.isStuck olderThan = true
    · have hput := Table.rows_put_of_split h (freed_id olderThan now t)
      rw [List.append_cons] at hput
      obtain ⟨T, hT, hrun⟩ := ih (s := { s with tasks := s.tasks.put (freed olderThan now t) }) hput
      refine ⟨T, by rw [hT, List.map_cons, ← List.append_cons], ?_⟩
      rw [resetRows, if_pos stuck, resetStuck_freed stuck, List.countP_cons, if_pos stuck]
      simp only [bind_apply, ofRule_ok, putTask_apply, hrun, pure_apply]
    · rw [List.append_cons] at h
      obtain ⟨T, hT, hrun⟩ := ih h
      refine ⟨T, ?_, ?_⟩
      · rw [hT, ← List.append_cons, List.map_cons, freed, if_neg stuck]
      · rw [resetRows, if_neg stuck, hrun, List.countP_cons, if_neg stuck, Nat.add_zero]

/-- A pass over an open store is never refused, and puts back the stuck tasks and no others. -/
theorem resetStuck_apply (olderThan now : Instant) (s : Store) :
    resetStuck olderThan now s = if s.poisoned then (.error (.refused .poisoned), s)
      else (.ok (s.tasks.rows.countP (·.isStuck olderThan)),
        { s with tasks := s.tasks.mapRows (freed olderThan now) (freed_id olderThan now) }) := by
  unfold resetStuck
  rw [locked_apply]
  split
  · rfl
  · obtain ⟨T, hT, hrun⟩ := resetRows_apply olderThan now (List.nil_append s.tasks.rows).symm
    have same : T = s.tasks.mapRows (freed olderThan now) (freed_id olderThan now) := Table.ext hT
    rw [bind_apply, get_apply]
    simp only [hrun, same]

end Store
end DurableQueue
