import DurableQueue.Proofs.Relational.Schema

/-! The calls send nothing that breaks a condition of the two tables, so that a database which finds fault with nothing else
    never tells of a broken condition. What they send comes from tasks and jobs that have been validated, or from rows that
    are in the tables already. -/

namespace DurableQueue

/-- The fault does not tell that a condition of a table is broken. -/
def StoreFault.Other (fault : StoreFault) : Prop := ∀ message, fault ≠ .reported .constraint message

namespace Relational

open Session

/-! ### What is written -/

/-- All that a statement writes is taken by the columns of its table. -/
def Statement.Obeys : Statement → Prop
  | insertTask row => taskSchema.Admits row
  | updateTask _ changes => taskSchema.Takes changes
  | claimTask now _ =>
    taskSchema.Takes [("status", .text TaskStatus.running.word), ("last_attempt", .time now), ("updated_at", .time now)]
  | resetStuck _ now => ∀ runAfter : Instant,
    taskSchema.Takes [("status", .text TaskStatus.pending.word), ("run_after", .time runAfter), ("updated_at", .time now)]
  | upsertJob row => jobSchema.Admits row
  | updateJob _ changes => jobSchema.Takes changes
  | _ => True

theorem obeys_claimTask (now : Instant) (regex : String) : (Statement.claimTask now regex).Obeys := by
  simp [Statement.Obeys, Schema.Takes, taskSchema, Column.admits_iff, ColumnType.holds, Check.passes, TaskStatus.word]

theorem obeys_resetStuck (olderThan now : Instant) : (Statement.resetStuck olderThan now).Obeys := by
  simp [Statement.Obeys, Schema.Takes, taskSchema, Column.admits_iff, ColumnType.holds, Check.passes, TaskStatus.word]

/-! ### Faults -/

/-- The database tells that a condition is broken. -/
def Exchange.Violates (e : Exchange) : Prop :=
  ∃ code message, e.reply = .error (.database code message) ∧ SqlFault.kindOf code = .constraint

section
variable {ε α : Type} {row : Row} {fault : StoreFault}

theorem violates_of_storeFault {s : Statement} {fault : SqlFault} {doing message : String}
    (h : fault.storeFault doing = .reported .constraint message) : (⟨s, .error fault⟩ : Exchange).Violates := by
  cases fault with
  | database code text =>
    simp only [SqlFault.storeFault, StoreFault.reported.injEq] at h
    exact ⟨code, text, rfl, h.1⟩
  | _ => cases h

theorem other_of_mapError {x : Except ε α} {f : ε → StoreFault} (h : ∀ e, x = .error e → (f e).Other)
    (failed : x.mapError f = .error fault) : fault.Other := by
  cases x with
  | ok a => cases failed
  | error e =>
    cases failed
    exact h e rfl

theorem other_storeFault (what : String) (fault : RowFault) : (fault.storeFault what).Other := by
  rintro message ⟨⟩

theorem other_of_decodeTask (h : decodeTask row = .error fault) : fault.Other :=
  other_of_mapError (fun e _ => other_storeFault "task" e) h

theorem other_of_decodeJob (h : decodeJob row = .error fault) : fault.Other :=
  other_of_mapError (fun e _ => other_storeFault "cron job" e) h

/-- A column that is not as it has to be breaks no condition. -/
theorem other_of_want {column doing : String} {kind : Value → Option α}
    (h : (row.want column kind).mapError (·.storeFault doing) = .error fault) : fault.Other := by
  refine other_of_mapError (fun e failed => ?_) h
  rcases bind_eq_error_iff.mp failed with missing | ⟨v, -, mistyped⟩
  · rw [Row.value] at missing
    cases hv : row.lookup column with
    | none =>
      rw [hv] at missing
      cases missing
      rintro message ⟨⟩
    | some v =>
      rw [hv] at missing
      cases missing
  · cases hk : kind v with
    | none =>
      rw [hk] at mistyped
      cases mistyped
      rintro message ⟨⟩
    | some a =>
      rw [hk] at mistyped
      cases mistyped

theorem other_of_countRows {counts : TaskCounts} {rows : List Row} (h : countRows counts rows = .error fault) :
    fault.Other := by
  induction rows generalizing counts with
  | nil => cases h
  | cons row rest ih =>
    rcases bind_eq_error_iff.mp h with failed | ⟨word, -, h⟩
    · exact other_of_want failed
    · rcases bind_eq_error_iff.mp h with failed | ⟨n, -, h⟩
      · exact other_of_want failed
      · cases known : TaskStatus.ofWord? word with
        | none =>
          rw [known] at h
          cases h
          rintro message ⟨⟩
        | some status =>
          rw [known] at h
          exact ih h

theorem other_of_decodeJobs {rows : List Row} (h : rows.mapM decodeJob = .error fault) : fault.Other := by
  induction rows with
  | nil => cases h
  | cons row rest ih =>
    rw [List.mapM_cons] at h
    rcases bind_eq_error_iff.mp h with failed | ⟨job, -, h⟩
    · exact other_of_decodeJob failed
    · rcases bind_eq_error_iff.mp h with failed | ⟨jobs, -, h⟩
      · exact ih failed
      · cases h

end

/-! ### Parts of calls -/

/-- The jobs that the database shows as due are rows of its table. -/
def Sound (log : List Exchange) : Prop :=
  ∀ e ∈ log, ∀ now limit answer, e = ⟨.selectDue now limit, .ok answer⟩ → ∀ row ∈ answer.rows, jobSchema.Admits row

/-- All that has been sent obeys, and a broken condition at the end is one that the database has told. -/
structure Proper {α : Type} (log : List Exchange) (r : Except (Halt StoreFault) α) : Prop where
  obeys : ∀ e ∈ log, e.statement.Obeys
  told : ∀ message, r = .error (.refused (.reported .constraint message)) → ∃ e ∈ log, e.Violates

/-- Whatever is replied by a database that shows rows of its tables, the course of the call is a proper one. -/
def Lawful {α : Type} (call : Session α) : Prop := ∀ log r, Course call log r → Sound log → Proper log r

section
variable {α β : Type} {log front back : List Exchange} {r : Except (Halt StoreFault) α} {s : Statement} {reply : Reply}

theorem Sound.left (h : Sound (front ++ back)) : Sound front := fun e he => h e (List.mem_append_left _ he)

theorem Sound.right (h : Sound (front ++ back)) : Sound back := fun e he => h e (List.mem_append_right _ he)

theorem Sound.tail {e : Exchange} (h : Sound (e :: log)) : Sound log := fun x hx => h x (List.mem_cons_of_mem e hx)

theorem Proper.error {h : Halt StoreFault} (head : Proper log (.error h : Except (Halt StoreFault) β)) :
    Proper log (.error h : Except (Halt StoreFault) α) where
  obeys := head.obeys
  told message same := head.told message (by cases same; rfl)

theorem Proper.append (head : ∀ e ∈ front, e.statement.Obeys) (tail : Proper back r) : Proper (front ++ back) r where
  obeys e he := (List.mem_append.mp he).elim (head e) (tail.obeys e)
  told message same := by
    obtain ⟨e, he, violates⟩ := tail.told message same
    exact ⟨e, List.mem_append_right _ he, violates⟩

theorem Proper.cons (obeys : s.Obeys) (tail : Proper log r) : Proper (⟨s, reply⟩ :: log) r := by
  rw [← List.singleton_append]
  exact .append (List.forall_mem_singleton.mpr obeys) tail

theorem Proper.concat (head : Proper log r) (obeys : s.Obeys) : Proper (log ++ [⟨s, reply⟩]) r where
  obeys e he := (List.mem_append.mp he).elim (head.obeys e) fun he => List.mem_singleton.mp he ▸ obeys
  told message same := by
    obtain ⟨e, he, violates⟩ := head.told message same
    exact ⟨e, List.mem_append_left _ he, violates⟩

theorem Proper.failed {fault : SqlFault} {doing : String} (obeys : s.Obeys) :
    Proper [⟨s, .error fault⟩] (.error (.refused (fault.storeFault doing)) : Except (Halt StoreFault) α) where
  obeys := List.forall_mem_singleton.mpr obeys
  told message same := by
    simp only [Except.error.injEq, Halt.refused.injEq] at same
    exact ⟨_, List.mem_singleton_self _, violates_of_storeFault same⟩

namespace Lawful

theorem pure (a : α) : Lawful (pure a : Session α) := by
  intro log r course _
  obtain ⟨rfl, rfl⟩ := course_pure_iff.mp course
  exact ⟨nofun, nofun⟩

theorem refuse {fault : StoreFault} (other : fault.Other) : Lawful (refuse fault : Session α) := by
  intro log r course _
  obtain ⟨rfl, rfl⟩ := course_throw_iff.mp course
  refine ⟨nofun, fun message same => ?_⟩
  cases same
  exact absurd rfl (other message)

theorem ofExcept {x : Except StoreFault α} (other : ∀ fault, x = .error fault → fault.Other) : Lawful (ofExcept x) := by
  cases x with
  | ok a => exact pure a
  | error fault => exact refuse (other fault rfl)

theorem ofRule_bind {x : Except Refusal β} {f : β → Session α} (tail : ∀ b, x = .ok b → Lawful (f b)) :
    Lawful (ofRule x >>= f) := by
  cases x with
  | ok b => exact tail b rfl
  | error cause => exact refuse nofun

theorem ofExcept_bind {x : Except StoreFault β} {f : β → Session α} (other : ∀ fault, x = .error fault → fault.Other)
    (tail : ∀ b, x = .ok b → Lawful (f b)) : Lawful (Session.ofExcept x >>= f) := by
  cases x with
  | ok b => exact tail b rfl
  | error fault => exact refuse (other fault rfl)

theorem ofOutcome_bind {x : Outcome Refusal β} {f : β → Session α} (tail : ∀ b, x = .ok b → Lawful (f b)) :
    Lawful (ofOutcome x >>= f) := by
  cases x with
  | ok b => exact tail b rfl
  | error h =>
    cases h with
    | refused cause => exact refuse nofun
    | crashed =>
      intro log r course _
      obtain ⟨rfl, rfl⟩ := course_throw_iff.mp course
      exact ⟨nofun, nofun⟩

/-- What follows the first part of a call may rely on how that has gone. -/
theorem bind {call : Session β} {f : β → Session α} (head : Lawful call)
    (tail : ∀ log b, Course call log (.ok b) → Sound log → Lawful (f b)) : Lawful (call >>= f) := by
  intro log r course sound
  rcases course_bind_iff.mp course with ⟨h, first, rfl⟩ | ⟨front, b, back, rfl, first, second⟩
  · exact (head _ _ first sound).error
  · exact .append (head _ _ first sound.left).obeys (tail _ _ first sound.left _ _ second sound.right)

theorem query_bind {doing : String} {f : Answer → Session α} (obeys : s.Obeys)
    (tail : ∀ answer, Sound [⟨s, .ok answer⟩] → Lawful (f answer)) : Lawful (query doing s >>= f) := by
  intro log r course sound
  rcases course_query_bind_iff.mp course with ⟨fault, rfl, rfl⟩ | ⟨answer, rest, rfl, second⟩
  · exact .failed obeys
  · rw [← List.singleton_append] at sound
    exact .cons obeys (tail answer sound.left _ _ second sound.right)

theorem inTransaction {call : Session α} (lawful : Lawful call) : Lawful (inTransaction call) := by
  intro log r course sound
  have begins : Statement.begin.Obeys := trivial
  rcases course_inTransaction_iff.mp course with
    ⟨fault, rfl, rfl⟩ | ⟨opened, body, ⟨h, reply, inner, rfl, rfl⟩ | ⟨a, reply, inner, rfl, rfl⟩⟩
  · exact .failed trivial
  · -- whatever the rollback is answered with, the fault is that of the call
    exact .concat (.cons begins (lawful _ _ inner sound.left.tail)) trivial
  · refine .append (Proper.cons begins (lawful _ _ inner sound.left.tail)).obeys ?_
    cases reply with
    | error fault => exact .failed trivial
    | ok answer => exact .cons trivial ⟨nofun, nofun⟩

end Lawful

end

/-! ### The calls -/

theorem lawful_firstTask (answer : Answer) : Lawful (firstTask answer) := by
  rw [firstTask]
  cases answer.rows with
  | nil => exact .pure _
  | cons row _ => exact .ofExcept_bind (fun _ => other_of_decodeTask) fun _ _ => .pure _

theorem lawful_firstJob (answer : Answer) : Lawful (firstJob answer) := by
  rw [firstJob]
  cases answer.rows with
  | nil => exact .pure _
  | cons row _ => exact .ofExcept_bind (fun _ => other_of_decodeJob) fun _ _ => .pure _

theorem lawful_insertRows {tasks : List Task} (h : ∀ t ∈ tasks, t.subject ≠ "") : Lawful (insertRows tasks) := by
  induction tasks with
  | nil => exact .pure _
  | cons t rest ih =>
    obtain ⟨first, others⟩ := List.forall_mem_cons.mp h
    exact .query_bind (admits_ofTask first) fun _ _ => ih others

theorem lawful_changeTask {α : Type} (doing : String) (id : TaskId) (change : Task → Outcome Refusal (Task × α)) :
    Lawful (changeTask doing id change) := by
  refine .inTransaction (.query_bind trivial fun answer _ => .bind (lawful_firstTask answer) fun _ t _ _ => ?_)
  cases t with
  | none => exact .refuse nofun
  | some t =>
    refine .ofOutcome_bind fun (changed, result) _ => ?_
    exact .query_bind (takes_taskChanges changed) fun _ _ => .pure _

theorem lawful_upsertFrom {specs : List JobSpec} (valid : ∀ spec ∈ specs, spec.validate = .ok ()) (ids : Nat → JobId)
    (now : Instant) (place : Nat) : Lawful (upsertFrom ids now place specs) := by
  induction specs generalizing place with
  | nil => exact .pure _
  | cons spec rest ih =>
    obtain ⟨first, others⟩ := List.forall_mem_cons.mp valid
    refine .ofOutcome_bind fun fresh made => ?_
    obtain ⟨named, subject⟩ := (Job.Arises.created first made).named
    refine .query_bind (admits_ofJob named subject) fun answer _ => .bind (lawful_firstJob answer) fun _ job _ _ => ?_
    cases job with
    | none => exact .refuse nofun
    | some job => exact .bind (ih others (place + 1)) fun _ jobs _ _ => .pure _

theorem lawful_upsertJobs (ids : Nat → JobId) (specs : List JobSpec) (now : Instant) :
    Lawful (upsertJobs ids specs now) :=
  .ofRule_bind fun _ valid => .inTransaction (lawful_upsertFrom (Store.forM_eq_ok_iff.mp valid) ids now 0)

theorem lawful_fireFrom (ids : Nat → TaskId) (now : Instant) (maxAttempts place : Nat) (rows : List Row) :
    Lawful (fireFrom ids now maxAttempts place rows) := by
  induction rows generalizing place with
  | nil => exact .pure _
  | cons row rest ih =>
    refine .ofExcept_bind (fun _ => other_of_decodeJob) fun job _ => .ofOutcome_bind fun (next, fire) _ => ?_
    exact .query_bind (takes_jobChanges next) fun _ _ => .bind (ih (place + 1)) fun _ _ _ _ => .pure _

/-- The tasks of jobs that are in the table have subjects. -/
theorem subject_ne_of_fireFrom {ids : Nat → TaskId} {now : Instant} {maxAttempts place : Nat} {rows : List Row}
    {fired : List FiredJob} {log : List Exchange}
    (course : Course (fireFrom ids now maxAttempts place rows) log (.ok fired))
    (admits : ∀ row ∈ rows, jobSchema.Admits row) : ∀ f ∈ fired, f.fire.task.subject ≠ "" := by
  induction rows generalizing place log fired with
  | nil =>
    obtain ⟨-, same⟩ := course_pure_iff.mp course
    cases same
    exact List.forall_mem_nil _
  | cons row rest ih =>
    obtain ⟨first, others⟩ := List.forall_mem_cons.mp admits
    rcases Writing.course_fireFrom_cons course with ⟨_, -, -, ⟨⟩⟩ | ⟨f, hj, ⟨_, -, _, ⟨⟩⟩ | ⟨_, _, r', -, tail, same⟩⟩
    cases r' with
    | error h => cases same
    | ok later =>
      cases same
      obtain ⟨job, reads, fires⟩ := judged_eq_ok_iff.mp hj
      refine List.forall_mem_cons.mpr ⟨?_, ih tail others⟩
      rw [(Job.task_of_fire fires).2]
      exact subject_ne_of_admits first reads

theorem lawful_fireDue (ids : Nat → TaskId) (now : Instant) (limit maxAttempts : Nat) :
    Lawful (fireDue ids now limit maxAttempts) := by
  refine .inTransaction (.query_bind trivial fun answer sound => ?_)
  -- the tasks that are written have the subjects of jobs that are in the table
  have rows : ∀ row ∈ answer.rows, jobSchema.Admits row := sound _ (List.mem_singleton_self _) _ _ _ rfl
  refine .bind (lawful_fireFrom ids now maxAttempts 0 answer.rows) fun log fired course _ => ?_
  have subjects : ∀ t ∈ fired.map (·.fire.task), t.subject ≠ "" :=
    List.forall_mem_map.mpr (subject_ne_of_fireFrom course rows)
  exact .bind (lawful_insertRows subjects) fun _ _ _ _ => .pure _

/-- A call of the store. Only tasks are handed over as they are, and they have arisen in one way or the other. -/
inductive IsCall : {α : Type} → Session α → Prop where
  | insertTasks {tasks : List Task} (arise : ∀ t ∈ tasks, t.Arises) : IsCall (insertTasks tasks)
  | getTask (id : TaskId) : IsCall (getTask id)
  | claimNext (pattern : Pattern) (now : Instant) : IsCall (claimNext pattern now)
  | complete (id : TaskId) (now : Instant) : IsCall (complete id now)
  | failAttempt (id : TaskId) (error : String) (now : Instant) : IsCall (failAttempt id error now)
  | requeue (id : TaskId) (now : Instant) : IsCall (requeue id now)
  | resetStuck (olderThan now : Instant) : IsCall (resetStuck olderThan now)
  | stats : IsCall stats
  | upsertJobs (ids : Nat → JobId) (specs : List JobSpec) (now : Instant) : IsCall (upsertJobs ids specs now)
  | getJob (name : String) : IsCall (getJob name)
  | listJobs : IsCall listJobs
  | fireDue (ids : Nat → TaskId) (now : Instant) (limit maxAttempts : Nat) : IsCall (fireDue ids now limit maxAttempts)

theorem IsCall.lawful {α : Type} {call : Session α} (h : IsCall call) : Lawful call := by
  cases h with
  | @insertTasks tasks arise =>
    rw [Relational.insertTasks]
    split
    · exact .pure _
    · exact .inTransaction (lawful_insertRows fun t ht => (arise t ht).subject_ne)
  | getTask id => exact .query_bind trivial fun answer _ => lawful_firstTask answer
  | claimNext pattern now => exact .query_bind (obeys_claimTask _ _) fun answer _ => lawful_firstTask answer
  | complete id now => exact lawful_changeTask _ _ _
  | failAttempt id error now => exact lawful_changeTask _ _ _
  | requeue id now => exact lawful_changeTask _ _ _
  | resetStuck olderThan now => exact .query_bind (obeys_resetStuck _ _) fun _ _ => .pure _
  | stats => exact .query_bind trivial fun _ _ => .ofExcept fun _ => other_of_countRows
  | upsertJobs ids specs now => exact lawful_upsertJobs ids specs now
  | getJob name => exact .query_bind trivial fun answer _ => lawful_firstJob answer
  | listJobs => exact .query_bind trivial fun _ _ => .ofExcept fun _ => other_of_decodeJobs
  | fireDue ids now limit maxAttempts => exact lawful_fireDue ids now limit maxAttempts

/-! ### Databases -/

/-- The database finds nothing broken that is not, and the jobs that it shows are rows of its table. -/
structure Enforces {σ : Type} (database : σ → Statement → Reply × σ) : Prop where
  just : ∀ s statement, (⟨statement, (database s statement).1⟩ : Exchange).Violates → ¬statement.Obeys
  shows : ∀ s now limit answer, (database s (.selectDue now limit)).1 = .ok answer →
    ∀ row ∈ answer.rows, jobSchema.Admits row

theorem reply_of_mem_exchanges {σ α : Type} {database : σ → Statement → Reply × σ} {d : Dialogue α} {s : σ} {e : Exchange}
    (h : e ∈ d.exchanges database s) : ∃ s', e.reply = (database s' e.statement).1 := by
  induction d generalizing s with
  | done a => cases h
  | send statement next ih =>
    rcases List.mem_cons.mp h with rfl | h
    · exact ⟨s, rfl⟩
    · exact ih _ h

/-- What has been validated meets the conditions of the tables, whatever has become of it since: every task and every job,
    when it is inserted and when columns are written back. So no call of the store is told of a broken condition. -/
theorem schema_upheld :
    (∀ t : Task, t.Arises → taskSchema.Admits (TaskRow.ofTask t).toRow ∧
      ∀ row, taskSchema.Admits row → taskSchema.Admits (row.update (taskChanges t))) ∧
    (∀ job : Job, job.Arises → jobSchema.Admits (JobRow.ofJob job).toRow ∧
      ∀ row, jobSchema.Admits row → jobSchema.Admits (row.update (jobChanges job)) ∧
        jobSchema.Admits (row.update (JobRow.redefinition (JobRow.ofJob job).toRow))) ∧
    ∀ {σ α : Type} (database : σ → Statement → Reply × σ) (call : Session α), Enforces database → IsCall call → ∀ s,
      (∀ e ∈ call.run.exchanges database s, e.statement.Obeys) ∧
      ∀ message, (call.run.run database s).1 ≠ .error (.refused (.reported .constraint message)) := by
  refine ⟨fun t arises => ?_, fun job arises => ?_, fun database call enforces isCall s => ?_⟩
  · exact ⟨admits_ofTask arises.subject_ne, fun row admits => admits.update (takes_taskChanges t)⟩
  · obtain ⟨named, subject⟩ := arises.named
    have admits := admits_ofJob named subject
    exact ⟨admits, fun row before => ⟨before.update (takes_jobChanges job), before.update (takes_redefinition admits.2)⟩⟩
  · have sound : Sound (call.run.exchanges database s) := by
      rintro _ member now limit answer rfl row hrow
      obtain ⟨s', reply⟩ := reply_of_mem_exchanges member
      exact enforces.shows s' now limit answer reply.symm row hrow
    have proper := isCall.lawful _ _ (Dialogue.course_exchanges database call.run s) sound
    refine ⟨proper.obeys, fun message told => ?_⟩
    obtain ⟨e, member, code, text, broken, kind⟩ := proper.told message told
    obtain ⟨s', reply⟩ := reply_of_mem_exchanges member
    exact enforces.just s' e.statement ⟨code, text, reply.symm.trans broken, kind⟩ (proper.obeys e member)

instance : DecidablePred Statement.Obeys
  | .insertTask row => inferInstanceAs (Decidable (taskSchema.Admits row))
  | .updateTask _ changes => inferInstanceAs (Decidable (taskSchema.Takes changes))
  | .upsertJob row => inferInstanceAs (Decidable (jobSchema.Admits row))
  | .updateJob _ changes => inferInstanceAs (Decidable (jobSchema.Takes changes))
  | .claimTask now regex => isTrue (obeys_claimTask now regex)
  | .resetStuck olderThan now => isTrue (obeys_resetStuck olderThan now)
  | .begin | .commit | .rollback | .selectTask _ | .lockTask _ | .countTasks | .selectJob _ | .listJobs | .selectDue ..
  | .inspectSchema => isTrue trivial

/-- A database with one job, which looks at the values that it is told. -/
def inspecting (job : Job) (_ : Unit) (statement : Statement) : Reply × Unit :=
  let rows : List Row := match statement with
    | .selectDue .. => [(JobRow.ofJob job).toRow]
    | .upsertJob row => [row]
    | _ => []
  (if statement.Obeys then .ok ⟨rows, 1⟩ else .error (.database "23514" "a condition is broken"), ())

theorem enforces_inspecting {job : Job} (arises : job.Arises) : Enforces (inspecting job) where
  just := by
    rintro s statement ⟨code, message, reply, -⟩ obeys
    obtain ⟨answer, answered⟩ : ∃ answer, (inspecting job s statement).1 = .ok answer := ⟨_, if_pos obeys⟩
    cases answered.symm.trans reply
  shows := by
    intro s now limit answer shown row hrow
    have obeys : (Statement.selectDue now limit).Obeys := trivial
    rw [inspecting, if_pos obeys] at shown
    cases shown
    rw [List.mem_singleton.mp hrow]
    exact admits_ofJob arises.named.1 arises.named.2

/-- A job that fires every minute, with the task of its first fire, which may be tried more often than a column counts. -/
theorem schema_upheld_fired :
    ∃ (job next : Job) (fire : Fire) (t : Task), Job.create (.made 0) (.plain "a" .everyMinute) .epoch = .ok job ∧
      job.fire (.made 1) ⟨100, 0⟩ 4294967295 = .ok (next, fire) ∧ fire.task.claim ⟨100, 0⟩ = .ok t ∧
      (TaskRow.ofTask fire.task).maxAttempts = 2147483647 ∧
      taskSchema.Admits ((TaskRow.ofTask fire.task).toRow.update (taskChanges t)) ∧
      jobSchema.Admits ((JobRow.ofJob job).toRow.update (jobChanges next)) ∧
      ((fireDue (fun n => .made (n + 1)) ⟨100, 0⟩ 5 4294967295).run.run (inspecting job) ()).1 = .ok [⟨next, fire⟩] ∧
      (∀ message, ((fireDue (fun n => .made (n + 1)) ⟨100, 0⟩ 5 4294967295).run.run (inspecting job) ()).1 ≠
        .error (.refused (.reported .constraint message))) ∧
      ∃ message, ((insertTasks [.create (.made 2) (.of "" []) .epoch]).run.run (inspecting job) ()).1 =
        .error (.refused (.reported .constraint message)) := by
  obtain ⟨tasks, jobs, calls⟩ := schema_upheld
  obtain ⟨job, created⟩ : ∃ job, Job.create (.made 0) (.plain "a" .everyMinute) .epoch = .ok job := ⟨_, rfl⟩
  have job_arises : job.Arises := .created (by decide) created
  obtain ⟨next, fire, fired⟩ : ∃ next fire, job.fire (.made 1) ⟨100, 0⟩ 4294967295 = .ok (next, fire) := by
    cases created
    exact ⟨_, _, rfl⟩
  obtain ⟨t, claimed⟩ : ∃ t, fire.task.claim ⟨100, 0⟩ = .ok t := by
    cases created
    cases fired
    exact ⟨_, rfl⟩
  have task_arises : fire.task.Arises := .emitted job_arises fired
  refine ⟨job, next, fire, t, created, fired, claimed, ?_, ?_, ?_, ?_, ?_, ?_⟩
  · cases created
    cases fired
    rfl
  · exact (tasks t (.claimed task_arises claimed)).2 _ (tasks _ task_arises).1
  · exact ((jobs next (.fired job_arises fired)).2 _ (jobs job job_arises).1).1
  · cases created
    cases fired
    rfl
  · exact (calls _ _ (enforces_inspecting job_arises) (.fireDue _ _ 5 4294967295) ()).2
  · exact ⟨_, rfl⟩

end Relational
end DurableQueue
