import DurableQueue.Proofs.Relational.Agreement
import DurableQueue.Proofs.Store.Tick

/-! Calls that write back columns lose nothing, whatever the database: every row that is left stands for the task or the job
    that is left, and every call on a database agrees with the call on a store. A database with two tables is one for which
    all of this holds. -/

namespace DurableQueue
namespace Relational

/-! ### Two tables -/

def Tables.ofStore (store : Store) : Tables where
  task id := (store.tasks.get? id).map fun t => (TaskRow.ofTask t).toRow
  job name := (store.jobs.get? name).map fun job => (JobRow.ofJob job).toRow

/-- The rows of a store stand for it if all that is in it fits in a row. -/
theorem alike_ofStore {store : Store}
    (few : ∀ t ∈ store.tasks.rows, t.maxAttempts ≤ greatestInt4 ∧ t.attempts ≤ greatestInt4)
    (whole : ∀ job ∈ store.jobs.rows, job.delay.subsecond = 0 ∧ job.delay.seconds ≤ greatestInt8) :
    Alike (Tables.ofStore store) store where
  tasks := by
    intro id
    simp only [Tables.ofStore]
    cases found : store.tasks.get? id with
    | none => exact .none
    | some t =>
      obtain ⟨fits, fits'⟩ := few t (Table.mem_of_get? found)
      exact Option.Rel.some ⟨toRow_fits t, decodeTask_toRow fits fits'⟩
  jobs := by
    intro name
    simp only [Tables.ofStore]
    cases found : store.jobs.get? name with
    | none => exact .none
    | some job =>
      obtain ⟨exact_, short⟩ := whole job (Table.mem_of_get? found)
      exact Option.Rel.some (decodeJob_toRow exact_ short)

namespace View

/-- The rows of the jobs that are due, of those with the given names, by the time of their fire. -/
def due (names : List String) (tables : Tables) (now : Instant) (limit : Int) : List Row :=
  let jobs := names.filterMap fun name => do
    let row ← tables.job name
    let job ← (decodeJob row).toOption
    if job.isDue now then some (row, job) else none
  ((jobs.mergeSort fun a b => a.2.nextRunAt ≤ b.2.nextRunAt).take limit.toNat).map (·.1)

/-- A database with two tables, all of whose jobs have one of the given names. Of the statements that only read it knows
    those that look for one row. -/
def reply (names : List String) (v : View) : Statement → Reply × View
  | .begin => (.ok ⟨[], 0⟩, ⟨v.shown, v.shown⟩)
  | .commit => (.ok ⟨[], 0⟩, v)
  | .rollback => (.ok ⟨[], 0⟩, ⟨v.saved, v.saved⟩)
  | .selectTask id | .lockTask id => (.ok ⟨(v.shown.task id).toList, (v.shown.task id).toList.length⟩, v)
  | .selectJob name => (.ok ⟨(v.shown.job name).toList, (v.shown.job name).toList.length⟩, v)
  | .selectDue now limit => (.ok ⟨due names v.shown now limit, (due names v.shown now limit).length⟩, v)
  | .updateTask id changes => (.ok ⟨[], 1⟩, { v with shown := v.shown.updateTask id changes })
  | .updateJob id changes => (.ok ⟨[], 1⟩, { v with shown := v.shown.updateJob id changes })
  | .insertTask row =>
    match row.lookup "id" with
    | some (.uuid id) =>
      if (v.shown.task ⟨id⟩).isSome then (.error (.database "23505" "a task has this identifier"), v)
      else (.ok ⟨[], 1⟩, { v with shown := v.shown.insertTask row })
    | _ => (.error (.database "23502" "a task has an identifier"), v)
  | .upsertJob row =>
    match row.lookup "name" with
    | some (.text name) => (.ok ⟨[v.shown.redefined name row], 1⟩, { v with shown := v.shown.upsertJob row })
    | _ => (.error (.database "23502" "a job has a name"), v)
  | .claimTask .. | .resetStuck .. | .countTasks | .listJobs | .inspectSchema =>
    (.error (.database "0A000" "the statement is not known"), v)

theorem keeps_reply (names : List String) : Keeps (reply names) id where
  begin _ := ⟨_, _, rfl, rfl⟩
  commit _ := ⟨_, _, rfl, rfl⟩
  rollback _ := rfl
  lockTask _ _ := ⟨_, _, rfl, rfl⟩
  updateTask _ _ := ⟨_, _, rfl, rfl⟩
  insertTask := by
    intro v t _ new
    have free : ¬(v.shown.task t.id).isSome := by
      rw [show v.shown.task t.id = none from new]
      exact Bool.false_ne_true
    exact ⟨_, _, if_neg free, rfl⟩
  upsertJob _ _ _ _ := ⟨_, _, rfl, rfl⟩
  updateJob _ _ := ⟨_, _, rfl, rfl⟩

end View

/-! ### A store and its database -/

def attempted : Task := { Task.create (.made 0) (.of "a" []) .epoch with status := .running, lastAttempt := some .epoch }

/-- A job that is to fire every minute, the next time at the first one. -/
def nightly : Job := Store.minutely "nightly" ⟨60, 0⟩

def busy : Store where
  tasks := ⟨[attempted], by decide⟩
  jobs := ⟨[nightly], by decide⟩

def busyView : View := ⟨Tables.ofStore busy, Tables.ofStore busy⟩

theorem alike_busy : Alike busyView.shown busy := alike_ofStore (by decide) (by decide)

theorem decodeJob_nightly : decodeJob (JobRow.ofJob nightly).toRow = .ok nightly :=
  decodeJob_toRow (by decide) (by decide)

theorem selectDue_busy : Store.selectDue busy.jobs.rows ⟨100, 0⟩ 5 = [nightly] := by
  have due : busy.jobs.rows.filter (·.isDue ⟨100, 0⟩) = [nightly] := by decide
  rw [Store.selectDue, due, List.mergeSort_singleton]
  rfl

theorem due_busy : View.due ["nightly"] busyView.shown ⟨100, 0⟩ (int8Of 5) = [(JobRow.ofJob nightly).toRow] := by
  have found : busyView.shown.job "nightly" = some (JobRow.ofJob nightly).toRow := rfl
  have isDue : nightly.isDue ⟨100, 0⟩ = true := by decide
  simp only [View.due, List.filterMap_cons, found, Option.bind_eq_bind, Option.bind_some, decodeJob_nightly,
    Except.toOption, isDue, ↓reduceIte, List.filterMap_nil, List.mergeSort_singleton]
  rfl

theorem selects_busy : Selects (View.reply ["nightly"]) id busyView busy (fun n => .made (n + 1)) ⟨100, 0⟩ 5
    [(JobRow.ofJob nightly).toRow] where
  distinct := by
    have named {name : String} {row : Row} (h : busyView.shown.job name = some row) : name = "nightly" := by
      obtain ⟨job, found, -⟩ := Option.map_eq_some_iff.mp h
      rw [← Table.key_of_get? found, List.mem_singleton.mp (Table.mem_of_get? found)]
      rfl
    intro name other row row' h h' _
    rw [named h, named h']
  shows := by
    rw [selectDue_busy]
    exact ⟨rfl, congrArg (· :: []) decodeJob_nightly⟩
  answers := by
    intro v same
    refine ⟨1, v, ?_, rfl⟩
    rw [View.reply, show v.shown = busyView.shown from same, due_busy]
    rfl
  sound := by
    rw [selectDue_busy]
    intro job member
    rw [List.mem_singleton.mp member]
    exact ⟨by decide, by decide⟩
  new := by
    rw [selectDue_busy]
    exact ⟨by decide, by decide⟩

/-! ### Nothing is lost -/

/-- The write-back of columns loses nothing: of a task that changes, of a job that fires, and of a job that is redefined
    with a delay of whole seconds. So the calls that do these things agree with those on a store. -/
theorem write_back_lossless :
    (∀ (row : Row) (t u : Task) (change : TaskChange) (result : change.Result), row.Fits → decodeTask row = .ok t →
      change.apply t = .ok (u, result) → decodeTask (row.update (taskChanges u)) = .ok u) ∧
    (∀ (row : Row) (job next : Job) (id : TaskId) (now : Instant) (maxAttempts : Nat) (fire : Fire),
      decodeJob row = .ok job → job.fire id now maxAttempts = .ok (next, fire) →
      decodeJob (row.update (jobChanges next)) = .ok next) ∧
    (∀ (row : Row) (job fresh : Job) (id : JobId) (spec : JobSpec) (now : Instant), decodeJob row = .ok job →
      spec.name = job.name → spec.validate = .ok () → spec.delay.subsecond = 0 → Job.create id spec now = .ok fresh →
      ∃ next, job.apply spec now = .ok next ∧
        decodeJob (row.update (JobRow.redefinition (JobRow.ofJob fresh).toRow)) = .ok next) ∧
    ∀ {σ : Type} (database : σ → Statement → Reply × σ) (view : σ → View), Keeps database view →
      (∀ id change, Agree database view (change.session id) (TaskChange.stored id change)) ∧
      (∀ ids specs now, (∀ spec ∈ specs, spec.delay.subsecond = 0) →
        Agree database view (upsertJobs ids specs now) (Store.upsertJobs ids specs now)) ∧
      ∀ s store ids now limit maxAttempts rows, Alike (view s).shown store → store.poisoned = false →
        Selects database view s store ids now limit rows →
        ∃ s', (fireDue ids now limit maxAttempts).run.run database s =
            ((Store.fireDue ids now limit maxAttempts store).1, s') ∧
          JobsAlike (view s').shown (Store.fireDue ids now limit maxAttempts store).2.jobs ∧
          Alike (view s').shown (Store.fireDue ids now limit (min maxAttempts greatestInt4) store).2 := by
  refine ⟨?_, ?_, ?_, ?_⟩
  · intro row t u change result fits reads changed
    exact decodeTask_changed fits reads changed
  · intro row job next id now maxAttempts fire reads fires
    exact decodeJob_fired reads fires
  · intro row job fresh id spec now reads _ valid whole made
    exact decodeJob_redefined reads valid whole made
  · intro σ database view keeps
    refine ⟨agree_change keeps, fun ids specs now whole => agree_upsertJobs keeps ids now whole, ?_⟩
    intro s store ids now limit maxAttempts rows alike isOpen selects
    exact agree_fireDue keeps alike isOpen selects

/-- A task that fails, a job that fires and a job that is redefined. -/
theorem write_back_lossless_busy :
    (∃ u verdict, attempted.failAttempt "lost" ⟨100, 0⟩ = .ok (u, verdict) ∧
      decodeTask ((TaskRow.ofTask attempted).toRow.update (taskChanges u)) = .ok u) ∧
    (∃ next fire, nightly.fire (.made 1) ⟨100, 0⟩ 3 = .ok (next, fire) ∧
      decodeJob ((JobRow.ofJob nightly).toRow.update (jobChanges next)) = .ok next) ∧
    (∃ fresh next, Job.create (.made 1) (.plain "nightly" .everyHour) ⟨100, 0⟩ = .ok fresh ∧
      nightly.apply (.plain "nightly" .everyHour) ⟨100, 0⟩ = .ok next ∧
      decodeJob ((JobRow.ofJob nightly).toRow.update (JobRow.redefinition (JobRow.ofJob fresh).toRow)) = .ok next) ∧
    (∃ verdict v, (failAttempt (.made 0) "lost" ⟨100, 0⟩).run.run (View.reply ["nightly"]) busyView = (.ok verdict, v) ∧
      Alike v.shown (Store.failAttempt (.made 0) "lost" ⟨100, 0⟩ busy).2) ∧
    (∃ made v, (upsertJobs .made [.plain "nightly" .everyHour] ⟨100, 0⟩).run.run (View.reply ["nightly"]) busyView =
        (.ok made, v) ∧
      Alike v.shown (Store.upsertJobs .made [.plain "nightly" .everyHour] ⟨100, 0⟩ busy).2) ∧
    ∃ fired v, (fireDue (fun n => .made (n + 1)) ⟨100, 0⟩ 5 3).run.run (View.reply ["nightly"]) busyView = (.ok fired, v) ∧
      Alike v.shown (Store.fireDue (fun n => .made (n + 1)) ⟨100, 0⟩ 5 3 busy).2 := by
  obtain ⟨changed, fires, redefines, calls⟩ := write_back_lossless
  obtain ⟨changes, registers, ticks⟩ := calls (View.reply ["nightly"]) id (View.keeps_reply _)
  have reads : decodeTask (TaskRow.ofTask attempted).toRow = .ok attempted := decodeTask_toRow (by decide) (by decide)
  refine ⟨?_, ?_, ?_, ?_, ?_, ?_⟩
  · exact ⟨_, _, rfl, changed _ _ _ (.failAttempt "lost" ⟨100, 0⟩) _ (toRow_fits attempted) reads rfl⟩
  · obtain ⟨next, fire, fired⟩ : ∃ next fire, nightly.fire (.made 1) ⟨100, 0⟩ 3 = .ok (next, fire) := ⟨_, _, rfl⟩
    exact ⟨next, fire, fired, fires _ _ _ _ _ _ _ decodeJob_nightly fired⟩
  · obtain ⟨fresh, made⟩ : ∃ fresh, Job.create (.made 1) (.plain "nightly" .everyHour) ⟨100, 0⟩ = .ok fresh := ⟨_, rfl⟩
    obtain ⟨next, applied, back⟩ := redefines _ _ _ _ _ _ decodeJob_nightly rfl (by decide) (by decide) made
    exact ⟨fresh, next, made, applied, back⟩
  · obtain ⟨v, run, alike⟩ := changes (.made 0) (.failAttempt "lost" ⟨100, 0⟩) busyView busy alike_busy rfl
    exact ⟨_, v, run, alike⟩
  · obtain ⟨v, run, alike⟩ := registers .made [.plain "nightly" .everyHour] ⟨100, 0⟩ (by decide) busyView busy alike_busy rfl
    exact ⟨_, v, run, alike⟩
  · obtain ⟨v, run, -, alike⟩ := ticks busyView busy _ _ _ 3 _ alike_busy rfl selects_busy
    have fired : ∃ fired, (Store.fireDue (fun n => .made (n + 1)) ⟨100, 0⟩ 5 3 busy).1 = .ok fired := by
      rw [Store.fireDue_apply, selectDue_busy]
      exact ⟨_, rfl⟩
    obtain ⟨fired, ok⟩ := fired
    rw [ok] at run
    exact ⟨fired, v, run, alike⟩

end Relational
end DurableQueue
