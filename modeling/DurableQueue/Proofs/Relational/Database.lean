import DurableQueue.Proofs.Relational.Rows
import DurableQueue.Proofs.Relational.Writing

/-! A database that does what it is told, in terms of the rows that it shows. Each statement either answers with rows or
    changes some; a rollback brings back the rows that there were when the transaction was opened. -/

namespace DurableQueue
namespace Relational

open Session

/-- The rows of both tables, under keys that no two rows of a table share. -/
structure Tables where
  task : TaskId → Option Row
  job : String → Option Row

namespace Tables

def insertTask (tables : Tables) (row : Row) : Tables :=
  { tables with task := fun id => if row.lookup "id" = some (.uuid id.uuid) then some row else tables.task id }

def updateTask (tables : Tables) (id : TaskId) (changes : Row) : Tables :=
  { tables with task := fun k => if k = id then (tables.task k).map (·.update changes) else tables.task k }

/-- What becomes of a new row: it stays as it is, or its columns go into the row that has the name. -/
def redefined (tables : Tables) (name : String) (row : Row) : Row :=
  match tables.job name with
  | some old => old.update (JobRow.redefinition row)
  | none => row

/-- A new row, or other values in some columns of the one with its name. -/
def upsertJob (tables : Tables) (row : Row) : Tables :=
  { tables with
    job := fun name =>
      if row.lookup "name" = some (.text name) then some (tables.redefined name row) else tables.job name }

def updateJob (tables : Tables) (id : JobId) (changes : Row) : Tables :=
  { tables with
    job := fun name => (tables.job name).map fun row =>
      if row.lookup "id" = some (.uuid id.uuid) then row.update changes else row }

theorem task_insertTask {row : Row} {id : TaskId} (h : row.lookup "id" = some (.uuid id.uuid)) (tables : Tables)
    (other : TaskId) : (tables.insertTask row).task other = if id = other then some row else tables.task other := by
  simp only [insertTask, h, Option.some.injEq, Value.uuid.injEq]
  by_cases same : id = other
  · subst same
    rw [if_pos rfl, if_pos rfl]
  · rw [if_neg same, if_neg fun e => same (congrArg TaskId.mk e)]

theorem job_upsertJob {row : Row} {name : String} (h : row.lookup "name" = some (.text name)) (tables : Tables)
    (other : String) : (tables.upsertJob row).job other =
      if name = other then some (tables.redefined name row) else tables.job other := by
  simp only [upsertJob, h, Option.some.injEq, Value.text.injEq]
  by_cases same : name = other
  · subst same
    rfl
  · rw [if_neg same, if_neg same]

end Tables

/-- What a transaction sees, and what a rollback brings back. -/
structure View where
  shown : Tables
  saved : Tables

section
variable {σ α β : Type}

/-- The database stores the values of tasks and jobs as they are. A name and a subject have to be there. -/
structure Keeps (database : σ → Statement → Reply × σ) (view : σ → View) : Prop where
  begin : ∀ s, ∃ answer s', database s .begin = (.ok answer, s') ∧ view s' = ⟨(view s).shown, (view s).shown⟩
  commit : ∀ s, ∃ answer s', database s .commit = (.ok answer, s') ∧ (view s').shown = (view s).shown
  rollback : ∀ s, (view (database s .rollback).2).shown = (view s).saved
  lockTask : ∀ s id, ∃ n s', database s (.lockTask id) = (.ok ⟨((view s).shown.task id).toList, n⟩, s') ∧
    view s' = view s
  updateTask : ∀ s (t : Task), ∃ answer s', database s (.updateTask t.id (taskChanges t)) = (.ok answer, s') ∧
    view s' = { view s with shown := (view s).shown.updateTask t.id (taskChanges t) }
  /-- A task whose identifier is new can be inserted. -/
  insertTask : ∀ s t, t.subject ≠ "" → (view s).shown.task t.id = none →
    ∃ answer s', database s (.insertTask (TaskRow.ofTask t).toRow) = (.ok answer, s') ∧
      view s' = { view s with shown := (view s).shown.insertTask (TaskRow.ofTask t).toRow }
  /-- The answer is the row as it is afterwards. -/
  upsertJob : ∀ s job, job.name ≠ "" → job.subject ≠ "" → ∃ n s', database s (.upsertJob (JobRow.ofJob job).toRow) =
      (.ok ⟨[(view s).shown.redefined job.name (JobRow.ofJob job).toRow], n⟩, s') ∧
    view s' = { view s with shown := (view s).shown.upsertJob (JobRow.ofJob job).toRow }
  updateJob : ∀ s (job : Job), ∃ answer s', database s (.updateJob job.id (jobChanges job)) = (.ok answer, s') ∧
    view s' = { view s with shown := (view s).shown.updateJob job.id (jobChanges job) }

theorem Dialogue.run_bind (database : σ → Statement → Reply × σ) (d : Dialogue α) (f : α → Dialogue β) (s : σ) :
    (d.bind f).run database s = (f (d.run database s).1).run database (d.run database s).2 := by
  induction d generalizing s with
  | done a => rfl
  | send statement next ih => exact ih _ _

variable {database : σ → Statement → Reply × σ} {view : σ → View}

namespace Session

theorem dialogue_lift_bind (d : Dialogue β) (f : β → Session α) (s : σ) :
    (ExceptT.lift d >>= f).run.run database s = (f (d.run database s).1).run.run database (d.run database s).2 := by
  rw [run_lift_bind, Dialogue.run_bind, Dialogue.run_bind]
  rfl

theorem dialogue_query_bind {statement : Statement} {answer : Answer} {s s' : σ}
    (h : database s statement = (.ok answer, s')) (doing : String) (f : Answer → Session α) :
    (query doing statement >>= f).run.run database s = (f answer).run.run database s' := by
  have asked : (query doing statement).run.run database s = (.ok answer, s') := by
    have reply : Dialogue.run database (.send statement .done) s = (.ok answer, s') := h
    rw [query, ask, dialogue_lift_bind, reply]
    rfl
  rw [run_bind, Dialogue.run_bind, asked]
  rfl

end Session

/-! ### Calls from tables to tables -/

variable {saved before between after : Tables}

/-- Within a transaction, a call leads from some tables to others. -/
def Leads (database : σ → Statement → Reply × σ) (view : σ → View) (saved : Tables) (call : Session α) (before : Tables)
    (r : Except (Halt StoreFault) α) (after : Tables) : Prop :=
  ∀ s, view s = ⟨before, saved⟩ → ∃ s', call.run.run database s = (r, s') ∧ view s' = ⟨after, saved⟩

/-- On its own, a call leads from some tables to others. -/
def Carries (database : σ → Statement → Reply × σ) (view : σ → View) (call : Session α) (before : Tables)
    (r : Except (Halt StoreFault) α) (after : Tables) : Prop :=
  ∀ s, (view s).shown = before → ∃ s', call.run.run database s = (r, s') ∧ (view s').shown = after

theorem leads_pure (a : α) : Leads database view saved (pure a) before (.ok a) before := by
  intro s hs
  exact ⟨s, rfl, hs⟩

theorem leads_throw (h : Halt StoreFault) : Leads database view saved (throw h : Session α) before (.error h) before := by
  intro s hs
  exact ⟨s, rfl, hs⟩

theorem Leads.bind {call : Session β} {f : β → Session α} {b : β} {r : Except (Halt StoreFault) α}
    (head : Leads database view saved call before (.ok b) between) (tail : Leads database view saved (f b) between r after) :
    Leads database view saved (call >>= f) before r after := by
  intro s hs
  obtain ⟨s₁, hrun, hs₁⟩ := head s hs
  obtain ⟨s₂, hrun', hs₂⟩ := tail s₁ hs₁
  refine ⟨s₂, ?_, hs₂⟩
  rw [run_bind, Dialogue.run_bind, hrun]
  exact hrun'

theorem Leads.bind_error {call : Session β} {f : β → Session α} {h : Halt StoreFault}
    (head : Leads database view saved call before (.error h) after) :
    Leads database view saved (call >>= f) before (.error h) after := by
  intro s hs
  obtain ⟨s', hrun, hs'⟩ := head s hs
  refine ⟨s', ?_, hs'⟩
  rw [run_bind, Dialogue.run_bind, hrun]
  rfl

theorem leads_query {doing : String} {statement : Statement} {f : Answer → Session α} {r : Except (Halt StoreFault) α}
    (h : ∀ s, view s = ⟨before, saved⟩ → ∃ answer s' between, database s statement = (.ok answer, s') ∧
      view s' = ⟨between, saved⟩ ∧ Leads database view saved (f answer) between r after) :
    Leads database view saved (query doing statement >>= f) before r after := by
  intro s hs
  obtain ⟨answer, s₁, between, hreply, hs₁, tail⟩ := h s hs
  obtain ⟨s₂, hrun, hs₂⟩ := tail s₁ hs₁
  exact ⟨s₂, by rw [dialogue_query_bind hreply, hrun], hs₂⟩

theorem leads_judged_error {γ : Type} {read : Except StoreFault β} {rule : β → Outcome Refusal γ} {f : γ → Session α}
    {h : Halt StoreFault} (bad : judged read rule = .error h) :
    Leads database view saved (ofExcept read >>= fun b => ofOutcome (rule b) >>= f) before (.error h) before := by
  rcases judged_eq_error_iff.mp bad with ⟨fault, rfl, rfl⟩ | ⟨b, cause, rfl, hr, rfl⟩
  · exact leads_throw _
  · rw [ofExcept_ok_bind, hr, ofOutcome_error_bind]
    exact leads_throw _

theorem leads_judged_ok {γ : Type} {read : Except StoreFault β} {rule : β → Outcome Refusal γ} {f : γ → Session α} {c : γ}
    {r : Except (Halt StoreFault) α} (good : judged read rule = .ok c) (tail : Leads database view saved (f c) before r after) :
    Leads database view saved (ofExcept read >>= fun b => ofOutcome (rule b) >>= f) before r after := by
  obtain ⟨b, rfl, hr⟩ := judged_eq_ok_iff.mp good
  rw [ofExcept_ok_bind, hr, ofOutcome_ok_bind]
  exact tail

/-- A transaction without a fault leaves what it shows at its end. -/
theorem Keeps.commits (keeps : Keeps database view) {call : Session α} {a : α}
    (inner : Leads database view before call before (.ok a) after) :
    Carries database view (inTransaction call) before (.ok a) after := by
  rintro s rfl
  obtain ⟨_, s₁, hbegin, hs₁⟩ := keeps.begin s
  obtain ⟨s₂, hrun, hs₂⟩ := inner s₁ hs₁
  obtain ⟨_, s₃, hcommit, hs₃⟩ := keeps.commit s₂
  refine ⟨s₃, ?_, by rw [hs₃, hs₂]⟩
  rw [inTransaction, dialogue_query_bind hbegin, dialogue_lift_bind, hrun]
  dsimp only
  rw [dialogue_query_bind hcommit]
  rfl

/-- A transaction with a fault leaves what there was before. -/
theorem Keeps.takesBack (keeps : Keeps database view) {call : Session α} {h : Halt StoreFault}
    (inner : Leads database view before call before (.error h) after) :
    Carries database view (inTransaction call) before (.error h) before := by
  rintro s rfl
  obtain ⟨_, s₁, hbegin, hs₁⟩ := keeps.begin s
  obtain ⟨s₂, hrun, hs₂⟩ := inner s₁ hs₁
  refine ⟨(database s₂ .rollback).2, ?_, by rw [keeps.rollback, hs₂]⟩
  rw [inTransaction, dialogue_query_bind hbegin, dialogue_lift_bind, hrun]
  dsimp only
  rw [ask, dialogue_lift_bind]
  rfl

end

end Relational
end DurableQueue
