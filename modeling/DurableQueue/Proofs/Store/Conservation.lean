import DurableQueue.Proofs.Store.Run

/-! No task is lost, made twice or rewritten. Calls move tasks in their places and add those that they insert, so the
    store holds what has been inserted and nothing else; what a task is made with stays as it is, and a task that is
    completed or has failed stays as it is altogether. -/

namespace DurableQueue
namespace Store
variable {s s' : Store} {e : Event} {es : List Event} {id : TaskId} {t u : Task}

/-! ### The ways of a status -/

/-- The ways that the status of a task takes, by the call that takes the task there. -/
inductive Call.Leads : Call → TaskId → TaskStatus → TaskStatus → Prop where
  | claim (pattern : Pattern) (now : Instant) (id : TaskId) : Leads (.claim pattern now) id .pending .running
  | complete (id : TaskId) (now : Instant) : Leads (.complete id now) id .running .completed
  | fail (id : TaskId) (error : String) (now : Instant) : Leads (.fail id error now) id .running .failed
  | retry (id : TaskId) (error : String) (now : Instant) : Leads (.fail id error now) id .running .pending
  | requeue (id : TaskId) (now : Instant) : Leads (.requeue id now) id .running .pending
  | reset (olderThan now : Instant) (id : TaskId) : Leads (.reset olderThan now) id .running .pending

theorem Event.Moves.leads (h : e.Moves t u) : u.status = t.status ∨ e.call.Leads t.id t.status u.status := by
  cases h with
  | kept => exact Or.inl rfl
  | claimed _ moved _ =>
    obtain ⟨pending, rfl⟩ := Task.claim_eq_ok.mp moved
    rw [pending]
    exact Or.inr (.claim _ _ _)
  | completed moved =>
    obtain ⟨running, rfl⟩ := Task.complete_eq_ok.mp moved
    rw [running]
    exact Or.inr (.complete _ _)
  | failed moved _ =>
    obtain ⟨running, ⟨-, -, rfl⟩ | ⟨-, _, -, -, rfl⟩⟩ := Task.failAttempt_eq_ok.mp moved
    · rw [running]
      exact Or.inr (.fail _ _ _)
    · rw [running]
      exact Or.inr (.retry _ _ _)
  | requeued moved _ =>
    obtain ⟨live, _, -, rfl⟩ := Task.requeue_eq_ok.mp moved
    -- A pending task may be put back as well, and stays pending.
    cases status : t.status with
    | pending => exact Or.inl rfl
    | running => exact Or.inr (.requeue _ _)
    | completed => rw [status] at live; cases live
    | failed => rw [status] at live; cases live
  | reset _ moved =>
    obtain ⟨running, rfl⟩ := Task.resetStuck_eq_ok.mp moved
    rw [running]
    exact Or.inr (.reset _ _ _)

theorem Event.Moves.eq_of_terminal (h : e.Moves t u) (ht : t.status.isTerminal = true) : u = t := by
  cases h with
  | kept => rfl
  | claimed _ moved _ =>
    rw [(Task.claim_eq_ok.mp moved).1] at ht
    cases ht
  | completed moved =>
    rw [(Task.complete_eq_ok.mp moved).1] at ht
    cases ht
  | failed moved _ =>
    rw [(Task.failAttempt_eq_ok.mp moved).1] at ht
    cases ht
  | requeued moved _ =>
    rw [(Task.requeue_eq_ok.mp moved).1] at ht
    cases ht
  | reset _ moved =>
    rw [(Task.resetStuck_eq_ok.mp moved).1] at ht
    cases ht

/-! ### Runs -/

theorem Run.sameWork (run : Run s es s') (h : s.tasks.get? id = some t) :
    ∃ u, s'.tasks.get? id = some u ∧ t.SameWork u :=
  run.related Task.SameWork .refl .trans (fun move => move.sameWork) h

theorem Run.get?_of_terminal (run : Run s es s') (h : s.tasks.get? id = some t) (ht : t.status.isTerminal = true) :
    s'.tasks.get? id = some t := by
  have final : ∃ u, s'.tasks.get? id = some u ∧ (t.status.isTerminal = true → u = t) := by
    refine run.related (fun t u => t.status.isTerminal = true → u = t) (fun _ _ => rfl) ?_
      (fun move => move.eq_of_terminal) h
    intro t u v first second ht
    obtain rfl := first ht
    exact second ht
  obtain ⟨u, hu, same⟩ := final
  rw [hu, same ht]

/-! ### Counts -/

theorem total_countTasks (tasks : List Task) : (countTasks tasks).total = tasks.length := by
  induction tasks with
  | nil => rfl
  | cons t rest ih =>
    simp only [countTasks, TaskCounts.total, List.countP_cons, List.length_cons] at ih ⊢
    cases t.status <;> simp <;> omega

theorem stats_apply (s : Store) :
    stats s = if s.poisoned then (.error (.refused .poisoned), s) else (.ok (countTasks s.tasks.rows), s) :=
  StoreM.look_apply (fun s => countTasks s.tasks.rows) s

/-- What a run from the empty store keeps. A task that a call inserts is there at the end, made as it was. A task that is
    completed or has failed before a call is the same at the end. A call leads the status of a task along the ways that
    belong to it. At the end there are the tasks that have been inserted, each once, and as many are counted. -/
theorem tasks_conserved (run : Run {} es s) :
    (∀ front e back, es = front ++ e :: back →
      (∀ t ∈ e.inserted, ∃ u, s.tasks.get? t.id = some u ∧ t.SameWork u) ∧
      (∀ id t, e.before.tasks.get? id = some t → t.status.isTerminal = true → s.tasks.get? id = some t) ∧
      ∀ id t, e.before.tasks.get? id = some t →
        ∃ u, e.after.tasks.get? id = some u ∧ (u.status = t.status ∨ e.call.Leads id t.status u.status)) ∧
    (s.tasks.rows.map (·.id)).Perm ((es.flatMap Event.inserted).map (·.id)) ∧
    ((es.flatMap Event.inserted).map (·.id)).Nodup ∧
    ∃ c, c.total = (es.flatMap Event.inserted).length ∧
      (stats s).1 = if s.poisoned then .error (.refused .poisoned) else .ok c := by
  have ids : (s.tasks.rows.map (·.id)).Perm ((es.flatMap Event.inserted).map (·.id)) := run.ids
  have once : ((es.flatMap Event.inserted).map (·.id)).Nodup := ids.nodup_iff.mp s.tasks.distinct
  refine ⟨fun front e back split => ?_, ids, once, countTasks s.tasks.rows, ?_, ?_⟩
  · subst split
    obtain ⟨-, behind⟩ := Run.split_iff.mp run
    refine ⟨fun t ht => behind.sameWork (Event.get?_inserted ht),
      fun id t h ht => (Run.cons e behind).get?_of_terminal h ht, fun id t h => ?_⟩
    obtain ⟨u, hu, move⟩ := Event.get?_after h
    obtain rfl := Table.key_of_get? h
    exact ⟨u, hu, move.leads⟩
  · rw [total_countTasks, ← List.length_map (·.id), ids.length_eq, List.length_map]
  · rw [stats_apply]
    split
    · rfl
    · rfl

theorem tasks_conserved_completed :
    ∃ front e s t, Run {} (front ++ [e]) s ∧ e.before.tasks.get? (.made 0) = some t ∧ t.status = .completed ∧
      s.tasks.get? (.made 0) = some t ∧ ∃ c, c.total = 1 ∧ (stats s).1 = .ok c := by
  have run : Run {} ([_, _, _] ++ [_]) _ := Run.of_calls
    [.publish TaskId.made .epoch [.of "a" []], .claim anySubject .epoch, .complete (.made 0) ⟨1, 0⟩,
      .fail (.made 0) "late" ⟨2, 0⟩] {}
  obtain ⟨steps, -, -, counts⟩ := tasks_conserved run
  exact ⟨_, _, _, _, run, rfl, rfl, (steps _ _ _ rfl).2.1 (.made 0) _ rfl rfl, counts⟩

end Store
end DurableQueue
