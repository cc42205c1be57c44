import DurableQueue.Proofs.Store.Jobs
import DurableQueue.Queue

/-! The calls of the store, one type for all of them, and what one call does to the stored tasks. A call keeps every task
    or takes it through one action, and the tasks that it inserts go behind the others; `Event.rowsMoved` says so of all
    calls at once, and what a call does to tasks is read off it. -/

namespace DurableQueue
namespace Store
open StoreM

/-- Publishes a batch through the queue. -/
def publish (ids : Nat → TaskId) (now : Instant) (news : List NewTask) :
    StateM Store (Outcome QueueFault (List TaskId)) :=
  Queue.publish (fun tasks => (insertTasks tasks).run) ids now news

/-- The calls of the store, those included that only look. Producers, consumers, reapers and schedulers make no others. -/
inductive Call where
  | insert (tasks : List Task)
  | publish (ids : Nat → TaskId) (now : Instant) (news : List NewTask)
  | getTask (id : TaskId)
  | claim (pattern : Pattern) (now : Instant)
  | complete (id : TaskId) (now : Instant)
  | fail (id : TaskId) (error : String) (now : Instant)
  | requeue (id : TaskId) (now : Instant)
  | reset (olderThan now : Instant)
  | stats
  | upsert (ids : Nat → JobId) (specs : List JobSpec) (now : Instant)
  | getJob (name : String)
  | listJobs
  | fire (ids : Nat → TaskId) (now : Instant) (limit maxAttempts : Nat)

/-- What a call leaves. -/
def Call.after : Call → Store → Store
  | insert tasks, s => (insertTasks tasks s).2
  | publish ids now news, s => (Store.publish ids now news s).2
  | getTask id, s => (Store.getTask id s).2
  | claim pattern now, s => (claimNext pattern now s).2
  | complete id now, s => (Store.complete id now s).2
  | fail id error now, s => (failAttempt id error now s).2
  | requeue id now, s => (Store.requeue id now s).2
  | reset olderThan now, s => (resetStuck olderThan now s).2
  | stats, s => (Store.stats s).2
  | upsert ids specs now, s => (upsertJobs ids specs now s).2
  | getJob name, s => (Store.getJob name s).2
  | listJobs, s => (Store.listJobs s).2
  | fire ids now limit maxAttempts, s => (fireDue ids now limit maxAttempts s).2

/-- A call, and the store that it is made on. -/
structure Event where
  call : Call
  before : Store

namespace Event

/-- The store after the call. -/
def after (e : Event) : Store := e.call.after e.before

/-- The tasks that the call has inserted, as far as its answer is a success. -/
def inserted (e : Event) : List Task :=
  match e.call with
  | .insert tasks =>
    match (insertTasks tasks e.before).1 with
    | .ok _ => tasks
    | .error _ => []
  | .publish ids now news =>
    match (publish ids now news e.before).1 with
    | .ok _ => Queue.tasksOf ids now news
    | .error _ => []
  | .fire ids now limit maxAttempts =>
    match (fireDue ids now limit maxAttempts e.before).1 with
    | .ok fired => fired.map (·.fire.task)
    | .error _ => []
  | _ => []

/-- The call was a claim at the given time and has given out the task. -/
def Claims (e : Event) (id : TaskId) (now : Instant) : Prop :=
  ∃ pattern t, e.call = .claim pattern now ∧ (claimNext pattern now e.before).1 = .ok (some t) ∧ t.id = id

/-- The call has ended an attempt at the given time, and there is to be another one. -/
def Retries (e : Event) (id : TaskId) (now : Instant) : Prop :=
  ∃ error runAfter, e.call = .fail id error now ∧ (failAttempt id error now e.before).1 = .ok (.retry runAfter)

/-- The call has put the task back at the given time, without counting a failure. -/
def Requeues (e : Event) (id : TaskId) (now : Instant) : Prop :=
  e.call = .requeue id now ∧ (requeue id now e.before).1 = .ok ()

/-- The call was a pass over stuck tasks and has reset this one: it was running, and is pending now. -/
def Resets (e : Event) (id : TaskId) : Prop :=
  (∃ olderThan now, e.call = .reset olderThan now) ∧
    (∃ t, e.before.tasks.get? id = some t ∧ t.status = .running) ∧
    ∃ u, e.after.tasks.get? id = some u ∧ u.status = .pending

end Event

/-! ### Inserting calls -/

theorem insertTasks_apply (batch : List Task) (s : Store) :
    insertTasks batch s = if s.poisoned then (.error (.refused .poisoned), s)
      else match checkBatch s.tasks [] batch with
        | .error fault => (.error (.refused fault), s)
        | .ok () => (.ok (), { s with tasks := batch.foldl Table.put s.tasks }) := by
  rw [insertTasks, locked_apply, insertAll_apply]
  cases checkBatch s.tasks [] batch <;> rfl

theorem insertTasks_cases (tasks : List Task) (s : Store) :
    (∃ h, insertTasks tasks s = (.error h, s)) ∨
    s.poisoned = false ∧ checkBatch s.tasks [] tasks = .ok () ∧
      insertTasks tasks s = (.ok (), { s with tasks := tasks.foldl Table.put s.tasks }) := by
  rw [insertTasks_apply]
  by_cases poisoned : s.poisoned = true
  · exact Or.inl ⟨_, if_pos poisoned⟩
  · rw [if_neg poisoned]
    cases h : checkBatch s.tasks [] tasks with
    | error fault => exact Or.inl ⟨_, rfl⟩
    | ok _ => exact Or.inr ⟨Bool.eq_false_iff.mpr poisoned, rfl, rfl⟩

theorem publish_refused {ids : Nat → TaskId} {now : Instant} {news : List NewTask} {fault : QueueFault}
    (invalid : Queue.validate now news = .error fault) (s : Store) :
    publish ids now news s = (.error (.refused fault), s) := by
  unfold publish Queue.publish
  rw [invalid]
  rfl

/-- A batch that is valid and not empty is inserted. -/
theorem publish_apply {ids : Nat → TaskId} {now : Instant} {new : NewTask} {rest : List NewTask}
    (valid : Queue.validate now (new :: rest) = .ok ()) (s : Store) :
    publish ids now (new :: rest) s =
      ((((insertTasks (Queue.tasksOf ids now (new :: rest)) s).1.map fun _ =>
        (Queue.tasksOf ids now (new :: rest)).map (·.id)).mapError (·.map .store)),
        (insertTasks (Queue.tasksOf ids now (new :: rest)) s).2) := by
  unfold publish Queue.publish
  rw [valid]
  rfl

theorem publish_cases (ids : Nat → TaskId) (now : Instant) (news : List NewTask) (s : Store) :
    (∃ h, publish ids now news s = (.error h, s)) ∨
    Queue.validate now news = .ok () ∧ checkBatch s.tasks [] (Queue.tasksOf ids now news) = .ok () ∧
      publish ids now news s = (.ok ((Queue.tasksOf ids now news).map (·.id)),
        { s with tasks := (Queue.tasksOf ids now news).foldl Table.put s.tasks }) := by
  cases valid : Queue.validate now news with
  | error fault => exact Or.inl ⟨_, publish_refused valid s⟩
  | ok _ =>
    cases news with
    | nil => exact Or.inr ⟨rfl, rfl, rfl⟩
    | cons new rest =>
      rw [publish_apply valid]
      rcases insertTasks_cases (Queue.tasksOf ids now (new :: rest)) s with ⟨h, hs⟩ | ⟨-, hc, hs⟩
      · rw [hs]
        exact Or.inl ⟨_, rfl⟩
      · rw [hs]
        exact Or.inr ⟨rfl, hc, rfl⟩

theorem fireDue_cases (ids : Nat → TaskId) (now : Instant) (limit maxAttempts : Nat) (s : Store) :
    (∃ h poisoned, fireDue ids now limit maxAttempts s = (.error h, { s with poisoned })) ∨
    s.poisoned = false ∧ ∃ fired, fireFrom ids now maxAttempts 0 (selectDue s.jobs.rows now limit) = .ok fired ∧
      checkBatch s.tasks [] (fired.map (·.fire.task)) = .ok () ∧
      fireDue ids now limit maxAttempts s = (.ok fired, { s with
        tasks := (fired.map (·.fire.task)).foldl Table.put s.tasks
        jobs := fired.foldl (fun jobs f => jobs.put f.job) s.jobs }) := by
  rw [fireDue_apply]
  by_cases poisoned : s.poisoned = true
  · rw [if_pos poisoned]
    exact Or.inl ⟨_, s.poisoned, rfl⟩
  · rw [if_neg poisoned]
    rcases fireFrom ids now maxAttempts 0 (selectDue s.jobs.rows now limit) with (cause | _) | fired
    · exact Or.inl ⟨_, s.poisoned, rfl⟩
    · exact Or.inl ⟨_, true, rfl⟩
    · dsimp only
      cases hc : checkBatch s.tasks [] (fired.map (·.fire.task)) with
      | error fault => exact Or.inl ⟨_, s.poisoned, rfl⟩
      | ok _ => exact Or.inr ⟨Bool.eq_false_iff.mpr poisoned, fired, rfl, hc, rfl⟩

/-! ### What a call does to a task -/

namespace Event

/-- How a call changes a stored task: not at all, or by the action that belongs to it. A call that has made a task move
    has answered so. -/
inductive Moves : Event → Task → Task → Prop where
  | kept {e : Event} {t : Task} : Moves e t t
  | claimed {s : Store} {pattern : Pattern} {now : Instant} {t u : Task} (due : t.isDue now = true)
      (moved : t.claim now = .ok u) (answer : (claimNext pattern now s).1 = .ok (some u)) :
      Moves ⟨.claim pattern now, s⟩ t u
  | completed {s : Store} {now : Instant} {t u : Task} (moved : t.complete now = .ok u) :
      Moves ⟨.complete t.id now, s⟩ t u
  | failed {s : Store} {error : String} {now : Instant} {t u : Task} {verdict : Verdict}
      (moved : t.failAttempt error now = .ok (u, verdict))
      (answer : (failAttempt t.id error now s).1 = .ok verdict) : Moves ⟨.fail t.id error now, s⟩ t u
  | requeued {s : Store} {now : Instant} {t u : Task} (moved : t.requeue now = .ok u)
      (answer : (requeue t.id now s).1 = .ok ()) : Moves ⟨.requeue t.id now, s⟩ t u
  | reset {s : Store} {olderThan now : Instant} {t u : Task} (stuck : t.isStuck olderThan = true)
      (moved : t.resetStuck now = .ok u) : Moves ⟨.reset olderThan now, s⟩ t u

variable {e : Event} {t u : Task} {id : TaskId}

theorem Moves.sameWork (h : e.Moves t u) : t.SameWork u := by
  cases h with
  | kept => exact .refl t
  | claimed _ moved _ =>
    rw [(Task.claim_eq_ok.mp moved).2]
    exact ⟨rfl, rfl, rfl, rfl, rfl⟩
  | completed moved =>
    rw [(Task.complete_eq_ok.mp moved).2]
    exact ⟨rfl, rfl, rfl, rfl, rfl⟩
  | failed moved _ =>
    obtain ⟨-, ⟨-, -, rfl⟩ | ⟨-, _, -, -, rfl⟩⟩ := Task.failAttempt_eq_ok.mp moved
    · exact ⟨rfl, rfl, rfl, rfl, rfl⟩
    · exact ⟨rfl, rfl, rfl, rfl, rfl⟩
  | requeued moved _ =>
    obtain ⟨-, _, -, rfl⟩ := Task.requeue_eq_ok.mp moved
    exact ⟨rfl, rfl, rfl, rfl, rfl⟩
  | reset _ moved =>
    rw [(Task.resetStuck_eq_ok.mp moved).2]
    exact ⟨rfl, rfl, rfl, rfl, rfl⟩

theorem Moves.id_eq (h : e.Moves t u) : u.id = t.id := h.sameWork.id

/-- The rows after a call: those before it in their places, each moved by the call, and then what it has inserted. -/
def RowsMoved (e : Event) : Prop :=
  ∃ f : Task → Task, (∀ t ∈ e.before.tasks.rows, e.Moves t (f t)) ∧
    e.after.tasks.rows = e.before.tasks.rows.map f ++ e.inserted

theorem rowsMoved_of_same (tasks : e.after.tasks = e.before.tasks) (none : e.inserted = []) : e.RowsMoved :=
  ⟨fun t => t, fun _ _ => .kept, by rw [tasks, none, List.map_id', List.append_nil]⟩

theorem rowsMoved_of_put (h : e.before.tasks.get? id = some t) (moves : e.Moves t u)
    (tasks : e.after.tasks = e.before.tasks.put u) (none : e.inserted = []) : e.RowsMoved := by
  have same : u.id = id := moves.id_eq.trans (Table.key_of_get? h)
  have member : Task.id u ∈ e.before.tasks.rows.map Task.id := by
    rw [same, ← Table.key_of_get? h]
    exact List.mem_map_of_mem (Table.mem_of_get? h)
  refine ⟨fun b => if b.id = u.id then u else b, fun b hb => ?_, ?_⟩
  · dsimp only
    split
    · next hid =>
      -- Keys are distinct, so the row that has the key of the written task is the one that has moved.
      rw [Table.eq_of_key_eq hb (Table.mem_of_get? h) (hid.trans moves.id_eq)]
      exact moves
    · exact .kept
  · rw [tasks, none, Table.rows_put_of_mem member, List.append_nil]
    rfl

theorem rowsMoved_of_append {new : List Task} (check : checkBatch e.before.tasks [] new = .ok ())
    (tasks : e.after.tasks = new.foldl Table.put e.before.tasks) (some : e.inserted = new) : e.RowsMoved := by
  obtain ⟨fresh, nodup⟩ := checkBatch_eq_ok_iff.mp check
  refine ⟨fun t => t, fun _ _ => .kept, ?_⟩
  rw [tasks, some, Table.rows_foldl_put (fun t ht => (fresh t ht).1) nodup, List.map_id']

theorem rowsMoved (e : Event) : e.RowsMoved := by
  obtain ⟨call, s⟩ := e
  cases call with
  | insert tasks =>
    rcases insertTasks_cases tasks s with ⟨h, hs⟩ | ⟨-, hc, hs⟩
    · exact rowsMoved_of_same (by rw [after, Call.after, hs]) (by simp only [inserted, hs])
    · exact rowsMoved_of_append hc (by rw [after, Call.after, hs]) (by simp only [inserted, hs])
  | publish ids now news =>
    rcases publish_cases ids now news s with ⟨h, hs⟩ | ⟨-, hc, hs⟩
    · exact rowsMoved_of_same (by rw [after, Call.after, hs]) (by simp only [inserted, hs])
    · exact rowsMoved_of_append hc (by rw [after, Call.after, hs]) (by simp only [inserted, hs])
  | getTask id => exact rowsMoved_of_same (congrArg tasks (look_store (fun s => s.tasks.get? id) s)) rfl
  | claim pattern now =>
    rcases claimNext_cases pattern now s with ⟨-, hs⟩ | ⟨-, -, hs⟩ | ⟨-, t, u, hf, hu, hs⟩
    · exact rowsMoved_of_same (by rw [after, Call.after, hs]) rfl
    · exact rowsMoved_of_same (by rw [after, Call.after, hs]) rfl
    · obtain ⟨ht, hc⟩ := List.mem_filter.mp (mem_of_firstOf hf)
      exact rowsMoved_of_put (Table.get?_key ht) (.claimed (isClaimable_iff.mp hc).1 hu (by rw [hs]))
        (by rw [after, Call.after, hs]) rfl
  | complete id now =>
    rcases complete_cases id now s with ⟨h, poisoned, hs⟩ | ⟨-, t, u, ht, hu, hs⟩
    · exact rowsMoved_of_same (by rw [after, Call.after, hs]) rfl
    · obtain rfl := Table.key_of_get? ht
      exact rowsMoved_of_put ht (.completed hu) (by rw [after, Call.after, hs]) rfl
  | fail id error now =>
    rcases failAttempt_cases id error now s with ⟨h, poisoned, hs⟩ | ⟨-, t, u, verdict, ht, hu, hs⟩
    · exact rowsMoved_of_same (by rw [after, Call.after, hs]) rfl
    · obtain rfl := Table.key_of_get? ht
      exact rowsMoved_of_put ht (.failed hu (by rw [hs])) (by rw [after, Call.after, hs]) rfl
  | requeue id now =>
    rcases requeue_cases id now s with ⟨h, poisoned, hs⟩ | ⟨-, t, u, ht, hu, hs⟩
    · exact rowsMoved_of_same (by rw [after, Call.after, hs]) rfl
    · obtain rfl := Table.key_of_get? ht
      exact rowsMoved_of_put ht (.requeued hu (by rw [hs])) (by rw [after, Call.after, hs]) rfl
  | reset olderThan now =>
    have hs := resetStuck_apply olderThan now s
    by_cases poisoned : s.poisoned = true
    · rw [if_pos poisoned] at hs
      exact rowsMoved_of_same (by rw [after, Call.after, hs]) rfl
    · rw [if_neg poisoned] at hs
      refine ⟨freed olderThan now, fun t _ => ?_, ?_⟩
      · by_cases stuck : t.isStuck olderThan = true
        · exact .reset stuck (resetStuck_freed stuck)
        · rw [freed, if_neg stuck]
          exact .kept
      · rw [after, Call.after, hs, inserted, List.append_nil]
        rfl
  | stats => exact rowsMoved_of_same (congrArg tasks (look_store (fun s => countTasks s.tasks.rows) s)) rfl
  | upsert ids specs now => exact rowsMoved_of_same (upsertJobs_tasks ids specs now s) rfl
  | getJob name => exact rowsMoved_of_same (congrArg tasks (look_store (fun s => s.jobs.get? name) s)) rfl
  | listJobs =>
    exact rowsMoved_of_same
      (congrArg tasks (look_store (fun s => s.jobs.rows.mergeSort fun a b => a.name ≤ b.name) s)) rfl
  | fire ids now limit maxAttempts =>
    rcases fireDue_cases ids now limit maxAttempts s with ⟨h, poisoned, hs⟩ | ⟨-, fired, -, hc, hs⟩
    · exact rowsMoved_of_same (by rw [after, Call.after, hs]) (by simp only [inserted, hs])
    · exact rowsMoved_of_append hc (by rw [after, Call.after, hs]) (by simp only [inserted, hs])

theorem get?_after (h : e.before.tasks.get? id = some t) : ∃ u, e.after.tasks.get? id = some u ∧ e.Moves t u := by
  obtain ⟨f, moves, rows⟩ := e.rowsMoved
  have move := moves t (Table.mem_of_get? h)
  have stored : f t ∈ e.after.tasks.rows := by
    rw [rows]
    exact List.mem_append_left _ (List.mem_map_of_mem (Table.mem_of_get? h))
  exact ⟨f t, Table.get?_eq_some_iff.mpr ⟨stored, move.id_eq.trans (Table.key_of_get? h)⟩, move⟩

theorem mem_after (h : u ∈ e.after.tasks.rows) : (∃ t ∈ e.before.tasks.rows, e.Moves t u) ∨ u ∈ e.inserted := by
  obtain ⟨f, moves, rows⟩ := e.rowsMoved
  rw [rows] at h
  rcases List.mem_append.mp h with h | h
  · obtain ⟨t, ht, rfl⟩ := List.mem_map.mp h
    exact Or.inl ⟨t, ht, moves t ht⟩
  · exact Or.inr h

theorem get?_inserted (h : t ∈ e.inserted) : e.after.tasks.get? t.id = some t := by
  obtain ⟨f, -, rows⟩ := e.rowsMoved
  refine Table.get?_key ?_
  rw [rows]
  exact List.mem_append_right _ h

/-- A call takes no identifier away, and adds those of the tasks that it inserts. -/
theorem ids_after (e : Event) :
    e.after.tasks.rows.map (·.id) = e.before.tasks.rows.map (·.id) ++ e.inserted.map (·.id) := by
  obtain ⟨f, moves, rows⟩ := e.rowsMoved
  rw [rows, List.map_append, List.map_map]
  congr 1
  exact List.map_congr_left fun t ht => (moves t ht).id_eq

/-! ### What answers tell -/

theorem Claims.moved {now : Instant} (h : e.Claims id now) :
    ∃ t u, e.before.tasks.get? id = some t ∧ t.isDue now = true ∧ t.claim now = .ok u ∧
      e.after.tasks.get? id = some u := by
  obtain ⟨call, s⟩ := e
  obtain ⟨pattern, u, rfl, answer, rfl⟩ := h
  rcases claimNext_cases pattern now s with ⟨-, hs⟩ | ⟨-, -, hs⟩ | ⟨-, t, v, hf, hv, hs⟩
  · simp [hs] at answer
  · simp [hs] at answer
  · obtain rfl : v = u := by simpa [hs] using answer
    obtain ⟨ht, hc⟩ := List.mem_filter.mp (mem_of_firstOf hf)
    have same : v.id = t.id := by rw [(Task.claim_eq_ok.mp hv).2]
    refine ⟨t, v, same ▸ Table.get?_key ht, (isClaimable_iff.mp hc).1, hv, ?_⟩
    rw [after, Call.after, hs, Table.get?_put, if_pos rfl]

/-- A call that has ended an attempt of a task has found the task and told what becomes of it. -/
theorem moved_of_failAttempt {error : String} {now : Instant} {verdict : Verdict} (call : e.call = .fail id error now)
    (answer : (failAttempt id error now e.before).1 = .ok verdict) :
    ∃ t u, e.before.tasks.get? id = some t ∧ t.failAttempt error now = .ok (u, verdict) ∧
      e.after.tasks.get? id = some u := by
  obtain ⟨_, s⟩ := e
  obtain rfl := call
  rcases failAttempt_cases id error now s with ⟨h, poisoned, hs⟩ | ⟨-, t, u, verdict', ht, hu, hs⟩
  · simp [hs] at answer
  · obtain rfl : verdict' = verdict := by simpa [hs] using answer
    have move : Moves ⟨.fail t.id error now, s⟩ t u := .failed hu (by rw [Table.key_of_get? ht, hs])
    refine ⟨t, u, ht, hu, ?_⟩
    rw [after, Call.after, hs, Table.get?_put, if_pos (move.id_eq.trans (Table.key_of_get? ht))]

theorem Retries.moved {now : Instant} (h : e.Retries id now) :
    ∃ t u error runAfter, e.before.tasks.get? id = some t ∧ t.failAttempt error now = .ok (u, .retry runAfter) ∧
      e.after.tasks.get? id = some u := by
  obtain ⟨error, runAfter, call, answer⟩ := h
  obtain ⟨t, u, ht, hu, after⟩ := moved_of_failAttempt call answer
  exact ⟨t, u, error, runAfter, ht, hu, after⟩

theorem Requeues.moved {now : Instant} (h : e.Requeues id now) :
    ∃ t u, e.before.tasks.get? id = some t ∧ t.requeue now = .ok u ∧ e.after.tasks.get? id = some u := by
  obtain ⟨call, s⟩ := e
  obtain ⟨rfl, answer⟩ := h
  rcases requeue_cases id now s with ⟨h, poisoned, hs⟩ | ⟨-, t, u, ht, hu, hs⟩
  · simp [hs] at answer
  · have move : Moves ⟨.requeue t.id now, s⟩ t u := .requeued hu (by rw [Table.key_of_get? ht, hs])
    refine ⟨t, u, ht, hu, ?_⟩
    rw [after, Call.after, hs, Table.get?_put, if_pos (move.id_eq.trans (Table.key_of_get? ht))]

/-! ### What is inserted -/

theorem inserted_checked (e : Event) : e.inserted = [] ∨ checkBatch e.before.tasks [] e.inserted = .ok () := by
  obtain ⟨call, s⟩ := e
  cases call with
  | insert tasks =>
    rcases insertTasks_cases tasks s with ⟨h, hs⟩ | ⟨-, hc, hs⟩
    · exact Or.inl (by simp only [inserted, hs])
    · exact Or.inr (by simpa only [inserted, hs] using hc)
  | publish ids now news =>
    rcases publish_cases ids now news s with ⟨h, hs⟩ | ⟨-, hc, hs⟩
    · exact Or.inl (by simp only [inserted, hs])
    · exact Or.inr (by simpa only [inserted, hs] using hc)
  | fire ids now limit maxAttempts =>
    rcases fireDue_cases ids now limit maxAttempts s with ⟨h, poisoned, hs⟩ | ⟨-, fired, -, hc, hs⟩
    · exact Or.inl (by simp only [inserted, hs])
    · exact Or.inr (by simpa only [inserted, hs] using hc)
  | _ => exact Or.inl rfl

theorem inserted_subject (h : t ∈ e.inserted) : t.subject ≠ "" := by
  rcases e.inserted_checked with none | check
  · rw [none] at h
    cases h
  · exact ((checkBatch_eq_ok_iff.mp check).1 t h).2.2

/-- What comes in through the queue or from a cron job is new. -/
theorem inserted_created (queued : ∀ tasks, e.call ≠ .insert tasks) (h : t ∈ e.inserted) :
    ∃ id new now, t = .create id new now := by
  obtain ⟨call, s⟩ := e
  cases call with
  | insert tasks => exact absurd rfl (queued tasks)
  | publish ids now news =>
    rcases publish_cases ids now news s with ⟨h', hs⟩ | ⟨-, -, hs⟩
    · simp only [inserted, hs] at h
      cases h
    · simp only [inserted, hs, Queue.tasksOf, List.mem_map] at h
      obtain ⟨⟨new, i⟩, -, rfl⟩ := h
      exact ⟨ids i, new, now, rfl⟩
  | fire ids now limit maxAttempts =>
    rcases fireDue_cases ids now limit maxAttempts s with ⟨h', poisoned, hs⟩ | ⟨-, fired, hf, -, hs⟩
    · simp only [inserted, hs] at h
      cases h
    · simp only [inserted, hs, List.mem_map] at h
      obtain ⟨f, hm, rfl⟩ := h
      obtain ⟨id, new, made⟩ := fireFrom_created hf f hm
      exact ⟨id, new, now, made⟩
  | _ => cases h

end Event

end Store
end DurableQueue
