import DurableQueue.Proofs.Relational.WriteBack
import DurableQueue.Proofs.Store.Unfailing

/-! A database and a store agree: a call gives the same result on either, and leaves rows that stand for what is stored. Of
    cron jobs this takes delays of whole seconds, since a row has no room for more, and of a tick that both select the same
    jobs in the same order. -/

namespace DurableQueue
namespace Relational

open Session

variable {σ α : Type} {database : σ → Statement → Reply × σ} {view : σ → View} {tables saved : Tables} {store : Store}

/-! ### Definitions of cron jobs -/

theorem Alike.upsertJob (alike : Alike tables store) {fresh next : Job} (named : next.name = fresh.name)
    (reads : decodeJob (tables.redefined fresh.name (JobRow.ofJob fresh).toRow) = .ok next) :
    Alike (tables.upsertJob (JobRow.ofJob fresh).toRow) { store with jobs := store.jobs.put next } where
  tasks := alike.tasks
  jobs := by
    intro name
    have key : (JobRow.ofJob fresh).toRow.lookup "name" = some (.text fresh.name) := rfl
    rw [Tables.job_upsertJob key, Table.get?_put, named]
    split
    · exact .some reads
    · exact alike.jobs name

/-- A definition that is valid and of whole seconds has the same effect on a row as on a job. -/
theorem upsertJob_agrees {now : Instant} (goes : now.add? (.ofSeconds 1) ≠ none) (alike : Alike tables store) (id : JobId)
    {spec : JobSpec} (valid : spec.validate = .ok ()) (whole : spec.delay.subsecond = 0) :
    ∃ fresh next, Job.create id spec now = .ok fresh ∧
      decodeJob (tables.redefined fresh.name (JobRow.ofJob fresh).toRow) = .ok next ∧
      Store.upsertJob id spec now store = (.ok next, { store with jobs := store.jobs.put next }) ∧
      Alike (tables.upsertJob (JobRow.ofJob fresh).toRow) { store with jobs := store.jobs.put next } := by
  have found : (spec.expression.next now : Outcome Refusal (Option Instant)) = .ok (spec.expression.schedule.next? now) :=
    Expression.next_eq_ok.mpr ⟨Option.isSome_iff_ne_none.mpr goes, rfl⟩
  obtain ⟨fresh, made⟩ : ∃ fresh, Job.create id spec now = .ok fresh := ⟨_, Job.create_eq_ok.mpr ⟨_, found, rfl⟩⟩
  have like : fresh.name = spec.name ∧ fresh.delay = spec.delay := by
    obtain ⟨_, -, rfl⟩ := Job.create_eq_ok.mp made
    exact ⟨rfl, rfl⟩
  have rel := alike.jobs fresh.name
  rw [like.1] at rel
  refine ⟨fresh, ?_⟩
  cases stored : store.jobs.get? spec.name with
  | none =>
    -- there is no row of the name, so the new one is read
    have reads : decodeJob (tables.redefined fresh.name (JobRow.ofJob fresh).toRow) = .ok fresh := by
      rw [stored] at rel
      rw [Tables.redefined, like.1]
      generalize tables.job spec.name = row at rel
      cases rel
      refine decodeJob_toRow ?_ ?_
      · rw [like.2, whole]
      · rw [like.2]
        exact seconds_le_of_validate valid
    refine ⟨fresh, made, reads, ?_, alike.upsertJob rfl reads⟩
    rw [Store.upsertJob_apply, stored]
    dsimp only
    rw [made]
  | some job =>
    obtain ⟨next, applied, reads⟩ : ∃ next, job.apply spec now = .ok next ∧
        decodeJob (tables.redefined fresh.name (JobRow.ofJob fresh).toRow) = .ok next := by
      rw [stored] at rel
      rw [Tables.redefined, like.1]
      generalize tables.job spec.name = row at rel
      cases rel with
      | some h => exact decodeJob_redefined h valid whole made
    have named : next.name = fresh.name := by
      obtain ⟨_, -, rfl⟩ := Job.apply_eq_ok.mp applied
      exact (Table.key_of_get? stored).trans like.1.symm
    refine ⟨next, made, reads, ?_, alike.upsertJob named reads⟩
    rw [Store.upsertJob_apply, stored]
    dsimp only
    rw [applied]

theorem agree_upsertFrom (keeps : Keeps database view) {now : Instant} (goes : now.add? (.ofSeconds 1) ≠ none)
    (ids : Nat → JobId) (place : Nat) {specs : List JobSpec} (valid : ∀ spec ∈ specs, spec.validate = .ok ())
    (whole : ∀ spec ∈ specs, spec.delay.subsecond = 0) (alike : Alike tables store) :
    ∃ made jobs after, Store.upsertFrom ids now place specs store = (.ok made, { store with jobs }) ∧
      Leads database view saved (upsertFrom ids now place specs) tables (.ok made) after ∧
      Alike after { store with jobs } := by
  induction specs generalizing place tables store with
  | nil => exact ⟨[], store.jobs, tables, rfl, leads_pure [], alike⟩
  | cons spec rest ih =>
    rw [List.forall_mem_cons] at valid whole
    obtain ⟨fresh, next, made, reads, upserted, alike⟩ := upsertJob_agrees goes alike (ids place) valid.1 whole.1
    have named : fresh.name ≠ "" ∧ fresh.subject ≠ "" := by
      obtain ⟨_, -, rfl⟩ := Job.create_eq_ok.mp made
      exact ⟨name_ne_of_validate valid.1, (JobSpec.of_validate valid.1).1⟩
    obtain ⟨others, jobs, after, stored, leads, alike⟩ := ih (place + 1) valid.2 whole.2 alike
    refine ⟨next :: others, jobs, after, ?_, ?_, alike⟩
    · rw [Store.upsertFrom]
      simp only [StoreM.bind_apply, upserted, stored, StoreM.pure_apply]
    · rw [Writing.upsertFrom_cons, made]
      refine leads_query fun s hs => ?_
      obtain ⟨n, s', hreply, hs'⟩ := keeps.upsertJob s fresh named.1 named.2
      rw [hs] at hreply hs'
      refine ⟨_, s', _, hreply, hs', ?_⟩
      have read : Writing.readJob ⟨[tables.redefined fresh.name (JobRow.ofJob fresh).toRow], n⟩ = .ok next := reads
      rw [read]
      exact leads.bind (leads_pure _)

theorem agree_upsertJobs (keeps : Keeps database view) (ids : Nat → JobId) {specs : List JobSpec} (now : Instant)
    (whole : ∀ spec ∈ specs, spec.delay.subsecond = 0) :
    Agree database view (upsertJobs ids specs now) (Store.upsertJobs ids specs now) := by
  intro s store alike isOpen
  rw [upsertJobs, Store.upsertJobs]
  cases valid : specs.forM JobSpec.validate with
  | error cause => exact ⟨s, rfl, alike⟩
  | ok done =>
    have valid := Store.forM_eq_ok_iff.mp valid
    have session : (ofRule (.ok done) >>= fun _ => inTransaction (upsertFrom ids now 0 specs)) =
      inTransaction (upsertFrom ids now 0 specs) := rfl
    have call : (StoreM.ofRule (.ok done) >>= fun _ => StoreM.locked (Store.upsertFrom ids now 0 specs)) store =
      StoreM.locked (Store.upsertFrom ids now 0 specs) store := rfl
    rw [session, call, StoreM.locked_apply, if_neg (Bool.eq_false_iff.mp isOpen)]
    by_cases goes : now.add? (.ofSeconds 1) = none
    · -- At the end of the calendar the first definition crashes, on either side before anything has been written.
      cases specs with
      | nil =>
        obtain ⟨s', hrun, hs'⟩ := keeps.commits (leads_pure []) s rfl
        exact ⟨s', hrun, hs' ▸ alike⟩
      | cons spec rest =>
        have lost : (spec.expression.next now : Outcome Refusal (Option Instant)) = .crash :=
          Expression.next_eq_crash.mpr goes
        have crash : Job.create (ids 0) spec now = .error .crashed := by
          rw [Job.create, lost]
          rfl
        have leads : Leads database view (view s).shown (upsertFrom ids now 0 (spec :: rest)) (view s).shown
            (.error .crashed) (view s).shown := by
          rw [Writing.upsertFrom_cons, crash]
          exact leads_throw _
        obtain ⟨s', hrun, hs'⟩ := keeps.takesBack leads s rfl
        rw [Store.upsertFrom, StoreM.bind_apply, Store.upsertJob_crash goes]
        exact ⟨s', hrun, by rw [hs']; exact ⟨alike.tasks, alike.jobs⟩⟩
    · obtain ⟨made, jobs, after, stored, leads, alike⟩ := agree_upsertFrom keeps goes ids 0 valid whole alike
      obtain ⟨s', hrun, hs'⟩ := keeps.commits leads s rfl
      rw [stored]
      exact ⟨s', hrun, hs' ▸ alike⟩

/-! ### Fires of cron jobs -/

theorem lookup_id_of_decodeJob {row : Row} {job : Job} (h : decodeJob row = .ok job) :
    row.lookup "id" = some (.uuid job.id.uuid) := by
  obtain ⟨_, hr, -⟩ := decodeJob_eq_ok_iff.mp h
  obtain ⟨v, hv, kind⟩ := Row.exists_of_want (JobRow.ofRow_eq_ok_iff.mp hr).1
  cases v with
  | uuid u =>
    cases kind
    exact hv
  | _ => cases kind

theorem lookup_id_update_fired (row : Row) (job : Job) : (row.update (jobChanges job)).lookup "id" = row.lookup "id" := by
  rw [Row.lookup_update]
  cases row.lookup "id" <;> rfl

/-- No two rows of cron jobs have an identifier in common. -/
def Tables.Distinct (tables : Tables) : Prop := ∀ {name other row row'}, tables.job name = some row →
  tables.job other = some row' → row.lookup "id" = row'.lookup "id" → name = other

/-- A fire moves the row of its job on and no other one. -/
theorem Tables.Distinct.job_updateJob (distinct : tables.Distinct) {row : Row} {job next : Job} (same : next.id = job.id)
    (shown : tables.job job.name = some row) (reads : decodeJob row = .ok job) (name : String) :
    (tables.updateJob next.id (jobChanges next)).job name =
      if job.name = name then some (row.update (jobChanges next)) else tables.job name := by
  have id := lookup_id_of_decodeJob reads
  by_cases named : job.name = name
  · subst named
    simp only [Tables.updateJob, shown, Option.map_some, id, same, ↓reduceIte]
  · rw [if_neg named]
    cases other : tables.job name with
    | none => simp only [Tables.updateJob, other, Option.map_none]
    | some row' =>
      have apart : row'.lookup "id" ≠ some (.uuid next.id.uuid) := by
        intro equal
        rw [same, ← id] at equal
        exact named (distinct shown other equal.symm)
      simp only [Tables.updateJob, other, Option.map_some, if_neg apart]

theorem Tables.Distinct.updateJob (distinct : tables.Distinct) (id : JobId) (job : Job) :
    (tables.updateJob id (jobChanges job)).Distinct := by
  have before {name : String} {row : Row} (h : (tables.updateJob id (jobChanges job)).job name = some row) :
      ∃ old, tables.job name = some old ∧ row.lookup "id" = old.lookup "id" := by
    obtain ⟨old, shown, rfl⟩ := Option.map_eq_some_iff.mp h
    refine ⟨old, shown, ?_⟩
    split
    · exact lookup_id_update_fired old job
    · rfl
  intro name other row row' h h' same
  obtain ⟨old, shown, id⟩ := before h
  obtain ⟨old', shown', id'⟩ := before h'
  exact distinct shown shown' (id.symm.trans (same.trans id'))

/-- The rows of some jobs, in the same order. -/
structure Tables.Show (tables : Tables) (rows : List Row) (jobs : List Job) : Prop where
  shown : jobs.map (fun job => tables.job job.name) = rows.map some
  reads : rows.map decodeJob = jobs.map .ok

section
variable {ids : Nat → TaskId} {now : Instant} {maxAttempts place : Nat} {due : List Job} {fired : List FiredJob}

theorem Alike.updateJob (alike : Alike tables store) (distinct : tables.Distinct) {row : Row} {job next : Job} {id : TaskId}
    {fire : Fire} (shown : tables.job job.name = some row) (reads : decodeJob row = .ok job)
    (fires : job.fire id now maxAttempts = .ok (next, fire)) :
    Alike (tables.updateJob next.id (jobChanges next)) { store with jobs := store.jobs.put next } where
  tasks := alike.tasks
  jobs := by
    intro name
    have named : next.name = job.name := Job.fire_name fires
    rw [distinct.job_updateJob (Job.fire_id fires) shown reads, Table.get?_put, named]
    split
    · exact .some (decodeJob_fired reads fires)
    · exact alike.jobs name

theorem Tables.Show.updateJob {rows : List Row} {row : Row} {job next : Job} {id : TaskId} {fire : Fire}
    (show_ : tables.Show rows due) (distinct : tables.Distinct) (shown : tables.job job.name = some row)
    (reads : decodeJob row = .ok job) (fires : job.fire id now maxAttempts = .ok (next, fire))
    (others : ∀ other ∈ due, other.name ≠ job.name) : (tables.updateJob next.id (jobChanges next)).Show rows due := by
  refine ⟨?_, show_.reads⟩
  rw [← show_.shown]
  refine List.map_congr_left fun other member => ?_
  rw [distinct.job_updateJob (Job.fire_id fires) shown reads, if_neg (Ne.symm (others other member))]

/-- Jobs fire on their rows as they do in a store, up to the first one that does not. -/
theorem agree_fireFrom (keeps : Keeps database view) (saved : Tables) (ids : Nat → TaskId) (now : Instant)
    (maxAttempts place : Nat) {rows : List Row} (alike : Alike tables store)
    (distinct : tables.Distinct) (names : (due.map (·.name)).Nodup) (show_ : tables.Show rows due) :
    ∃ after, Leads database view saved (fireFrom ids now maxAttempts place rows) tables
        ((Store.fireFrom ids now maxAttempts place due).mapCause .refused) after ∧
      ∀ fired, Store.fireFrom ids now maxAttempts place due = .ok fired →
        Alike after { store with jobs := fired.foldl (fun jobs f => jobs.put f.job) store.jobs } := by
  induction due generalizing place tables store rows with
  | nil =>
    rw [List.map_eq_nil_iff.mp show_.shown.symm]
    refine ⟨tables, leads_pure [], ?_⟩
    rintro fired ⟨⟩
    exact alike
  | cons job due ih =>
    cases rows with
    | nil => cases show_.shown
    | cons row rows =>
      obtain ⟨shown, shownRest⟩ := List.cons.inj show_.shown
      obtain ⟨reads, readsRest⟩ := List.cons.inj show_.reads
      rw [List.map_cons, List.nodup_cons, List.mem_map] at names
      -- the rows have been selected before this job moves on, and it does not move the rows of the others
      have apart : ∀ other ∈ due, other.name ≠ job.name := fun other member same => names.1 ⟨other, member, same⟩
      rw [Store.fireFrom_cons]
      have moves : judged (decodeJob row) (·.fire (ids place) now maxAttempts) =
          (job.fire (ids place) now maxAttempts).mapCause .refused := by
        rw [reads]
        rfl
      cases fires : job.fire (ids place) now maxAttempts with
      | error h =>
        rw [fires] at moves
        exact ⟨tables, leads_judged_error moves, nofun⟩
      | ok moved =>
        obtain ⟨next, fire⟩ := moved
        rw [fires] at moves
        have later := Tables.Show.updateJob ⟨shownRest, readsRest⟩ distinct shown reads fires apart
        obtain ⟨after, leads, alike⟩ :=
          ih (place + 1) (alike.updateJob distinct shown reads fires) (distinct.updateJob _ _) names.2 later
        refine ⟨after, leads_judged_ok moves (leads_query fun s hs => ?_), ?_⟩
        · obtain ⟨answer, s', hreply, hs'⟩ := keeps.updateJob s next
          rw [hs] at hs'
          refine ⟨answer, s', _, hreply, hs', ?_⟩
          dsimp only
          cases rest : Store.fireFrom ids now maxAttempts (place + 1) due with
          | error h =>
            rw [rest] at leads
            exact leads.bind_error
          | ok others =>
            rw [rest] at leads
            exact leads.bind (leads_pure _)
        · intro fired h
          dsimp only at h
          cases rest : Store.fireFrom ids now maxAttempts (place + 1) due with
          | error h' =>
            rw [rest] at h
            cases h
          | ok others =>
            rw [rest] at h
            cases h
            exact alike others rest

/-! ### Tasks that fires make -/

/-- A task with the number of its attempts cut down to what fits in a row. -/
def cutTask (t : Task) : Task := { t with maxAttempts := min t.maxAttempts greatestInt4 }

def cutFired (f : FiredJob) : FiredJob := { f with fire := { f.fire with task := cutTask f.fire.task } }

theorem ofTask_cutTask (t : Task) : TaskRow.ofTask (cutTask t) = TaskRow.ofTask t := by
  simp only [TaskRow.ofTask, cutTask, int4Of, Nat.min_assoc, Nat.min_self]

theorem insertRows_cutFired (fired : List FiredJob) :
    insertRows ((fired.map cutFired).map (·.fire.task)) = insertRows (fired.map (·.fire.task)) := by
  induction fired with
  | nil => rfl
  | cons f rest ih =>
    simp only [List.map_cons, insertRows, ih]
    rw [cutFired, ofTask_cutTask]

theorem fireFrom_cut (ids : Nat → TaskId) (now : Instant) (maxAttempts place : Nat) (due : List Job) :
    Store.fireFrom ids now (min maxAttempts greatestInt4) place due =
      (Store.fireFrom ids now maxAttempts place due).map (List.map cutFired) := by
  induction due generalizing place with
  | nil => rfl
  | cons job due ih =>
    have head : job.fire (ids place) now (min maxAttempts greatestInt4) =
        (job.fire (ids place) now maxAttempts).map
          (Prod.map id fun fire => { fire with task := cutTask fire.task }) := by
      rw [Job.fire, Job.fire, Job.fireInPlace_apply, Job.fireInPlace_apply]
      cases job.isDue now with
      | false => rfl
      | true =>
        cases now.delayed job.delay with
        | error cause => rfl
        | ok runAfter =>
          cases (job.expression.next now : Outcome Refusal (Option Instant)) with
          | error h => rfl
          | ok later => rfl
    rw [Store.fireFrom_cons, Store.fireFrom_cons, head, ih]
    cases job.fire (ids place) now maxAttempts with
    | error h => rfl
    | ok moved =>
      cases Store.fireFrom ids now maxAttempts (place + 1) due with
      | error h => rfl
      | ok others => rfl

theorem agree_insertRows (keeps : Keeps database view) (saved : Tables) {tasks : List Task} (alike : Alike tables store)
    (few : ∀ t ∈ tasks, t.maxAttempts ≤ greatestInt4 ∧ t.attempts ≤ greatestInt4) (subject : ∀ t ∈ tasks, t.subject ≠ "")
    (new : ∀ t ∈ tasks, store.tasks.get? t.id = none) (nodup : (tasks.map (·.id)).Nodup) :
    ∃ after, Leads database view saved (insertRows tasks) tables (.ok ()) after ∧
      Alike after { store with tasks := tasks.foldl Table.put store.tasks } := by
  induction tasks generalizing tables store with
  | nil => exact ⟨tables, leads_pure (), alike⟩
  | cons t rest ih =>
    rw [List.forall_mem_cons] at few subject new
    rw [List.map_cons, List.nodup_cons, List.mem_map] at nodup
    have key : (TaskRow.ofTask t).toRow.lookup "id" = some (.uuid t.id.uuid) := rfl
    have free : tables.task t.id = none := by
      have rel := alike.tasks t.id
      rw [new.1] at rel
      generalize tables.task t.id = row at rel
      cases rel
      rfl
    have inserted : Alike (tables.insertTask (TaskRow.ofTask t).toRow) { store with tasks := store.tasks.put t } := by
      refine ⟨fun id => ?_, alike.jobs⟩
      rw [Tables.task_insertTask key, Table.get?_put]
      split
      · exact .some ⟨toRow_fits t, decodeTask_toRow few.1.1 few.1.2⟩
      · exact alike.tasks id
    have later : ∀ u ∈ rest, (store.tasks.put t).get? u.id = none := by
      intro u member
      rw [Table.get?_put, if_neg fun same => nodup.1 ⟨u, member, same.symm⟩]
      exact new.2 u member
    obtain ⟨after, leads, alike⟩ := ih inserted few.2 subject.2 later nodup.2
    refine ⟨after, leads_query fun s hs => ?_, alike⟩
    obtain ⟨answer, s', hreply, hs'⟩ := keeps.insertTask s t subject.1 (by rw [hs]; exact free)
    rw [hs] at hs'
    exact ⟨answer, s', _, hreply, hs', leads⟩

theorem attempts_le_of_cut (fires : Store.fireFrom ids now maxAttempts place due = .ok fired) :
    ∀ t ∈ (fired.map cutFired).map (·.fire.task), t.maxAttempts ≤ greatestInt4 ∧ t.attempts ≤ greatestInt4 := by
  intro t member
  obtain ⟨_, cut, rfl⟩ := List.mem_map.mp member
  obtain ⟨f, hf, rfl⟩ := List.mem_map.mp cut
  obtain ⟨_, _, made⟩ := Store.fireFrom_created fires f hf
  rw [cutFired, cutTask, made]
  exact ⟨Nat.min_le_right _ _, Nat.zero_le _⟩

/-! ### Ticks -/

/-- What a tick takes for granted: the database selects the jobs that the store does, in the same order, and the tasks of
    these jobs can be inserted. -/
structure Selects (database : σ → Statement → Reply × σ) (view : σ → View) (s : σ) (store : Store) (ids : Nat → TaskId)
    (now : Instant) (limit : Nat) (rows : List Row) : Prop where
  distinct : (view s).shown.Distinct
  shows : (view s).shown.Show rows (Store.selectDue store.jobs.rows now limit)
  answers : ∀ s', (view s').shown = (view s).shown → ∃ n s'',
    database s' (.selectDue now (int8Of limit)) = (.ok ⟨rows, n⟩, s'') ∧ view s'' = view s'
  sound : ∀ job ∈ Store.selectDue store.jobs.rows now limit, job.Sound
  new : Store.NewIds ids (Store.selectDue store.jobs.rows now limit).length store

theorem Selects.leads {limit : Nat} {s : σ} {rows : List Row} {r : Except (Halt StoreFault) (List FiredJob)}
    {before after : Tables} (selects : Selects database view s store ids now limit rows)
    (rest : Leads database view before (fireFrom ids now maxAttempts 0 rows >>= fun fired =>
      insertRows (fired.map (·.fire.task)) >>= fun _ => pure fired) (view s).shown r after) :
    Leads database view before (Writing.fireRows ids now limit maxAttempts) (view s).shown r after := by
  refine leads_query fun s₁ hs₁ => ?_
  obtain ⟨n, s₂, hreply, hs₂⟩ := selects.answers s₁ (by rw [hs₁])
  exact ⟨_, s₂, _, hreply, hs₂.trans hs₁, rest⟩

/-- A tick on a database gives what it gives in a store, and moves the rows of the jobs on as the jobs themselves. The rows
    of the tasks stand for them with their attempts cut down to what fits in a row. -/
theorem agree_fireDue (keeps : Keeps database view) {limit : Nat} {s : σ} {rows : List Row}
    (alike : Alike (view s).shown store) (isOpen : store.poisoned = false)
    (selects : Selects database view s store ids now limit rows) :
    ∃ s', (fireDue ids now limit maxAttempts).run.run database s = ((Store.fireDue ids now limit maxAttempts store).1, s') ∧
      JobsAlike (view s').shown (Store.fireDue ids now limit maxAttempts store).2.jobs ∧
      Alike (view s').shown (Store.fireDue ids now limit (min maxAttempts greatestInt4) store).2 := by
  obtain ⟨between, firing, moved⟩ := agree_fireFrom keeps (view s).shown ids now maxAttempts 0 alike selects.distinct
    (Store.nodup_selectDue _ _ _) selects.shows
  have cut := fireFrom_cut ids now maxAttempts 0 (Store.selectDue store.jobs.rows now limit)
  rw [Store.fireDue_apply, Store.fireDue_apply, if_neg (Bool.eq_false_iff.mp isOpen), if_neg (Bool.eq_false_iff.mp isOpen),
    cut]
  cases fires : Store.fireFrom ids now maxAttempts 0 (Store.selectDue store.jobs.rows now limit) with
  | error h =>
    rw [fires] at firing
    obtain ⟨s', hrun, hs'⟩ := keeps.takesBack (selects.leads firing.bind_error) s rfl
    have same : Alike (view s').shown { store with poisoned := true } := by
      rw [hs']
      exact ⟨alike.tasks, alike.jobs⟩
    cases h with
    | refused cause => exact ⟨s', hrun, same.jobs, ⟨same.tasks, same.jobs⟩⟩
    | crashed => exact ⟨s', hrun, same.jobs, same⟩
  | ok fired =>
    rw [fires] at firing cut
    have valid := Store.checkBatch_fired fires selects.new selects.sound
    have validCut := Store.checkBatch_fired cut selects.new selects.sound
    obtain ⟨new, nodup⟩ := Store.checkBatch_eq_ok_iff.mp validCut
    obtain ⟨after, inserting, alike⟩ := agree_insertRows keeps (view s).shown (moved fired fires) (attempts_le_of_cut fires)
      (fun t member => (new t member).2.2) (fun t member => (new t member).1) nodup
    -- the statements do not tell a task that has been cut down from the one that was made
    rw [insertRows_cutFired] at inserting
    obtain ⟨s', hrun, hs'⟩ := keeps.commits (selects.leads (firing.bind (inserting.bind (leads_pure fired)))) s rfl
    rw [← hs'] at alike
    dsimp only [Except.map]
    rw [valid, validCut]
    have sameJobs : (fired.map cutFired).foldl (fun jobs f => jobs.put f.job) store.jobs =
        fired.foldl (fun jobs f => jobs.put f.job) store.jobs := List.foldl_map
    refine ⟨s', hrun, alike.jobs, alike.tasks, ?_⟩
    dsimp only
    rw [sameJobs]
    exact alike.jobs

end

end Relational
end DurableQueue
