import DurableQueue.Proofs.Store.Event
import DurableQueue.Proofs.Store.Repetition

/-! Runs: calls of the store one after the other, in any order and by anyone, from any store. The lock makes the calls of
    all clients such a sequence. The tables promise no order, so between calls their rows may come into another one. What
    one call does to a row becomes here what a whole run does to it: relations that every call respects hold across a
    run, and where a property of a row is lost there is a call that loses it. -/

namespace DurableQueue
namespace Store

/-- The calls of a run with the stores that they find, and the store at its end. -/
inductive Run : Store → List Event → Store → Prop where
  | nil (s : Store) : Run s [] s
  | cons (e : Event) {rest : List Event} {s : Store} (tail : Run e.after rest s) : Run e.before (e :: rest) s
  /-- What comes next finds the rows in another order. -/
  | reorder {s found s' : Store} {es : List Event} (order : Reordered s found) (tail : Run found es s') : Run s es s'

/-- Calls one after the other, with the stores that they find. -/
def Call.events : List Call → Store → List Event
  | [], _ => []
  | call :: rest, s => ⟨call, s⟩ :: events rest (call.after s)

/-- What calls leave, one after the other. -/
def Call.afterAll : List Call → Store → Store
  | [], s => s
  | call :: rest, s => afterAll rest (call.after s)

/-- The pattern that every subject falls under. -/
def anySubject : Pattern := ⟨">", by decide, by decide⟩

/-- A task whose attempt fails, by a clock that is behind, and which is claimed once more. -/
def Call.retried : List Call :=
  [.publish TaskId.made .epoch [.of "a" []], .claim anySubject .epoch, .fail (.made 0) "no" ⟨-5, 0⟩,
    .claim anySubject ⟨15, 0⟩]

/-- A task that is lost by one consumer after the other. -/
def Call.lost : List Call :=
  [.publish TaskId.made .epoch [.of "a" []], .claim anySubject .epoch, .reset ⟨90, 0⟩ ⟨100, 0⟩,
    .claim anySubject ⟨100, 0⟩, .reset ⟨190, 0⟩ ⟨20, 0⟩]

namespace Run
variable {s s' : Store} {es es' : List Event} {e : Event} {id : TaskId}

/-- Whatever calls are made make a run. -/
theorem of_calls (calls : List Call) (s : Store) : Run s (Call.events calls s) (Call.afterAll calls s) := by
  induction calls generalizing s with
  | nil => exact .nil s
  | cons call rest ih => exact .cons ⟨call, s⟩ (ih (call.after s))

theorem nil_iff : Run s [] s' ↔ Reordered s s' := by
  constructor
  · intro run
    generalize empty : [] = calls at run
    induction run with
    | nil s => exact .refl s
    | cons => cases empty
    | reorder order _ ih => exact order.trans (ih empty)
  · exact fun order => .reorder order (.nil s')

theorem cons_iff : Run s (e :: es) s' ↔ Reordered s e.before ∧ Run e.after es s' := by
  constructor
  · intro run
    -- The first call of the run may have other orders of the rows in front of it.
    generalize whole : e :: es = calls at run
    induction run with
    | nil => cases whole
    | cons first tail =>
      obtain ⟨rfl, rfl⟩ := List.cons.inj whole
      exact ⟨.refl _, tail⟩
    | reorder order _ ih =>
      obtain ⟨found, tail⟩ := ih whole
      exact ⟨order.trans found, tail⟩
  · rintro ⟨order, tail⟩
    exact .reorder order (.cons e tail)

/-- The part of a run in front of a call, and the part behind it. -/
theorem split_iff : Run s (es ++ e :: es') s' ↔ Run s es e.before ∧ Run e.after es' s' := by
  induction es generalizing s with
  | nil => rw [List.nil_append, cons_iff, nil_iff]
  | cons first es ih => rw [List.cons_append, cons_iff, ih, cons_iff, and_assoc]

/-! ### A row from call to call -/

section
variable {α : Type} {row : Store → Option α} {step : Event → α → α → Prop}

/-- A row, and the step that each call makes with it. Another order of the rows leaves it as it is. -/
structure Tracked (row : Store → Option α) (step : Event → α → α → Prop) : Prop where
  moves : ∀ (e : Event) t, row e.before = some t → ∃ u, row e.after = some u ∧ step e t u
  stays : ∀ {s found : Store}, Reordered s found → row found = row s

/-- A relation that every step of a row respects holds between the row and what becomes of it. -/
theorem related_row (tracked : Tracked row step) (R : α → α → Prop) (refl : ∀ t, R t t)
    (trans : ∀ {t u v}, R t u → R u v → R t v) (respects : ∀ {e : Event} {t u}, step e t u → R t u)
    (run : Run s es s') {t : α} (h : row s = some t) : ∃ u, row s' = some u ∧ R t u := by
  induction run generalizing t with
  | nil => exact ⟨t, h, refl t⟩
  | cons e _ ih =>
    obtain ⟨u, hu, moved⟩ := tracked.moves e t h
    obtain ⟨v, hv, later⟩ := ih hu
    exact ⟨v, hv, trans (respects moved) later⟩
  | reorder order _ ih => exact ih ((tracked.stays order).trans h)

/-- Where a row has a property and later has it no more, one of the steps between has taken it away. -/
theorem exists_row_turn (tracked : Tracked row step) (P : α → Prop) (run : Run s es s') {t t' : α}
    (h : row s = some t) (ht : P t) (h' : row s' = some t') (ht' : ¬P t') :
    ∃ e ∈ es, ∃ u u', row e.before = some u ∧ P u ∧ row e.after = some u' ∧ ¬P u' ∧ step e u u' := by
  induction run generalizing t with
  | nil =>
    rw [h] at h'
    cases h'
    exact absurd ht ht'
  | cons e _ ih =>
    obtain ⟨u, hu, moved⟩ := tracked.moves e t h
    -- This call is the turn, unless the row has the property behind it still.
    by_cases kept : P u
    · obtain ⟨e', he', turn⟩ := ih hu kept h'
      exact ⟨e', List.mem_cons_of_mem e he', turn⟩
    · exact ⟨e, List.mem_cons_self, t, u, h, ht, hu, kept, moved⟩
  | reorder order _ ih => exact ih ((tracked.stays order).trans h) ht h'

end

/-! ### Tasks -/

theorem tracked_task (id : TaskId) : Tracked (fun s => s.tasks.get? id) Event.Moves where
  moves _ _ h := Event.get?_after h
  stays order := order.getTask id

/-- A relation that every call respects holds between a task and what becomes of it. -/
theorem related (R : Task → Task → Prop) (refl : ∀ t, R t t) (trans : ∀ {t u v}, R t u → R u v → R t v)
    (moves : ∀ {e : Event} {t u}, e.Moves t u → R t u) (run : Run s es s') {t : Task}
    (h : s.tasks.get? id = some t) : ∃ u, s'.tasks.get? id = some u ∧ R t u :=
  related_row (tracked_task id) R refl trans moves run h

/-- A property of all tasks that a call inserts, which calls do not take from a task, holds of all stored tasks. -/
theorem invariant {P : Task → Prop} (run : Run s es s') (inserted : ∀ e ∈ es, ∀ t ∈ e.inserted, P t)
    (moves : ∀ {e : Event} {t u}, e.Moves t u → P t → P u) (start : ∀ t ∈ s.tasks.rows, P t) :
    ∀ t ∈ s'.tasks.rows, P t := by
  induction run with
  | nil => exact start
  | cons e _ ih =>
    refine ih (fun e' he' => inserted e' (List.mem_cons_of_mem e he')) fun u hu => ?_
    rcases Event.mem_after hu with ⟨t, ht, move⟩ | new
    · exact moves move (start t ht)
    · exact inserted e List.mem_cons_self u new
  | reorder order _ ih => exact ih inserted fun t ht => start t (order.tasks.mem_iff.mp ht)

/-- Where a task has a property and later has it no more, one of the calls between has taken it away. -/
theorem exists_turn (P : Task → Prop) (run : Run s es s') {t t' : Task} (h : s.tasks.get? id = some t) (ht : P t)
    (h' : s'.tasks.get? id = some t') (ht' : ¬P t') :
    ∃ e ∈ es, ∃ u u', e.before.tasks.get? id = some u ∧ P u ∧ e.after.tasks.get? id = some u' ∧ ¬P u' ∧
      e.Moves u u' :=
  exists_row_turn (tracked_task id) P run h ht h' ht'

/-- The identifiers in the store are those that it had at the start and those that have been inserted. -/
theorem ids (run : Run s es s') :
    (s'.tasks.rows.map (·.id)).Perm (s.tasks.rows.map (·.id) ++ (es.flatMap Event.inserted).map (·.id)) := by
  induction run with
  | nil => rw [List.flatMap_nil, List.map_nil, List.append_nil]
  | cons e _ ih =>
    rw [e.ids_after, List.append_assoc] at ih
    rw [List.flatMap_cons, List.map_append]
    exact ih
  | reorder order _ ih => exact ih.trans ((order.tasks.map _).append_right _)

end Run

end Store
end DurableQueue
