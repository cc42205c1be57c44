import DurableQueue.Proofs.Relational.Transaction
import DurableQueue.Proofs.Relational.Writing
import DurableQueue.Proofs.Store.Jobs

/-! A call that writes does all or nothing. As soon as something stands in its way, nothing more is sent than a rollback; and
    it comes to its commit with all that it has to write. -/

namespace DurableQueue
namespace Relational

open Session

variable {α : Type} {log : List Exchange} {name : Statement → String}

/-! ### Tasks -/

theorem Blunt.insertRows (named : ∀ row, name (.insertTask row) = "insert_task") (tasks : List Task) :
    Blunt name (insertRows tasks) := by
  induction tasks with
  | nil => exact .pure _
  | cons t rest ih => exact .query_bind rfl (named _) fun _ => ih

theorem course_insertRows_ok {tasks : List Task} (course : Course (insertRows tasks) log (.ok ())) :
    log.map (·.statement) = tasks.map Writing.insertion := by
  induction tasks generalizing log with
  | nil =>
    obtain ⟨rfl, -⟩ := course_pure_iff.mp course
    rfl
  | cons t rest ih =>
    rcases course_query_bind_iff.mp course with ⟨_, -, ⟨⟩⟩ | ⟨answer, back, rfl, tail⟩
    rw [List.map_cons, List.map_cons, ih tail]
    rfl

namespace Writing

def changeRow (id : TaskId) (change : TaskChange) : Session change.Result := do
  let answer ← query change.doing (.lockTask id)
  let t ← ofExcept (readTask id answer)
  let (t, result) ← ofOutcome (change.apply t)
  let _ ← query change.doing (.updateTask t.id (taskChanges t))
  return result

theorem session_changeTask (id : TaskId) (change : TaskChange) :
    (changeTask id change).session = inTransaction (changeRow id change) := by
  refine (change.session_eq id).trans ?_
  rw [Relational.changeTask, changeRow]
  congr 2
  funext answer
  rw [firstTask, readTask, readFirst]
  cases answer.rows with
  | nil => rfl
  | cons row _ =>
    dsimp only
    cases decodeTask row <;> rfl

variable {id : TaskId} {change : TaskChange} {r : Except (Halt StoreFault) change.Result}

theorem blunt_changeRow (id : TaskId) (change : TaskChange) :
    Blunt (changeTask id change).doing (changeRow id change) := by
  refine .query_bind rfl rfl fun answer => .bind (.ofExcept _) fun t => .bind (.ofOutcome _) fun (t, result) => ?_
  exact .query_bind rfl rfl fun _ => .pure _

/-- A task is locked, and then it is told what it has become or it stays. -/
theorem course_changeRow (course : Course (changeRow id change) log r) :
    (∃ fault, log = [⟨.lockTask id, .error fault⟩] ∧ ∃ h, r = .error h) ∨
    ∃ answer, (∃ h, judged (readTask id answer) change.apply = .error h ∧ log = [⟨.lockTask id, .ok answer⟩] ∧
        r = .error h) ∨
      ∃ t result reply, judged (readTask id answer) change.apply = .ok (t, result) ∧
        log = [⟨.lockTask id, .ok answer⟩, ⟨.updateTask t.id (taskChanges t), reply⟩] ∧ (r = .ok result ∨ ∃ h, r = .error h) := by
  rcases course_query_bind_iff.mp course with ⟨fault, rfl, rfl⟩ | ⟨answer, _, rfl, locked⟩
  · exact Or.inl ⟨fault, rfl, _, rfl⟩
  · refine Or.inr ⟨answer, ?_⟩
    rcases course_judged_iff.mp locked with ⟨h, hj, rfl, rfl⟩ | ⟨⟨t, result⟩, hj, changed⟩
    · exact Or.inl ⟨h, hj, rfl, rfl⟩
    · refine Or.inr ⟨t, result, ?_⟩
      rcases course_query_bind_iff.mp changed with ⟨fault, rfl, rfl⟩ | ⟨updated, _, rfl, told⟩
      · exact ⟨_, hj, rfl, Or.inr ⟨_, rfl⟩⟩
      · obtain ⟨rfl, rfl⟩ := course_pure_iff.mp told
        exact ⟨_, hj, rfl, Or.inl rfl⟩

theorem complete_changeRow {result : change.Result} (course : Course (changeRow id change) log (.ok result)) :
    (changeTask id change).Complete log result := by
  rcases course_changeRow course with ⟨_, -, _, ⟨⟩⟩ | ⟨answer, ⟨_, -, -, ⟨⟩⟩ | ⟨t, _, reply, hj, rfl, same⟩⟩
  rcases same with ⟨⟨⟩⟩ | ⟨_, ⟨⟩⟩
  exact ⟨answer, t, reply, hj, rfl⟩

theorem halts_changeRow {front : List Exchange} {answer : Answer} {h : Halt StoreFault}
    (bad : judged (readTask id answer) change.apply = .error h) :
    Halts (changeRow id change) (front ++ [⟨.lockTask id, .ok answer⟩]) h := by
  intro rest r course
  rw [List.append_assoc] at course
  generalize hlog : front ++ ([⟨.lockTask id, .ok answer⟩] ++ rest) = log at course
  have mem : ⟨.lockTask id, .ok answer⟩ ∈ log := by simp [← hlog]
  rcases course_changeRow course with ⟨_, rfl, -⟩ | ⟨given, ⟨other, hj, rfl, rfl⟩ | ⟨t, result, reply, hj, rfl, -⟩⟩
  · simp at mem
  · obtain rfl : answer = given := by simpa using mem
    have length := congrArg List.length hlog
    simp only [List.length_append, List.length_cons, List.length_nil] at length
    refine ⟨List.eq_nil_of_length_eq_zero (by omega), ?_⟩
    rw [bad] at hj
    cases hj
    rfl
  · obtain rfl : answer = given := by simpa using mem
    cases bad.symm.trans hj

/-! ### Definitions of cron jobs -/

section
variable {ids : Nat → JobId} {specs : List JobSpec} {spec : JobSpec} {now : Instant} {place : Nat}
  {r : Except (Halt StoreFault) (List Job)}

theorem upsertFrom_cons (ids : Nat → JobId) (now : Instant) (place : Nat) (spec : JobSpec) (specs : List JobSpec) :
    upsertFrom ids now place (spec :: specs) = (do
      let fresh ← ofOutcome (Job.create (ids place) spec now)
      let answer ← query "upsert_cron_job" (.upsertJob (JobRow.ofJob fresh).toRow)
      let job ← ofExcept (readJob answer)
      return job :: (← upsertFrom ids now (place + 1) specs)) := by
  rw [upsertFrom]
  congr 1
  funext fresh
  congr 1
  funext answer
  rw [firstJob, readJob, readFirst]
  cases answer.rows with
  | nil => rfl
  | cons row _ =>
    dsimp only
    cases decodeJob row <;> rfl

theorem blunt_upsertFrom (named : ∀ row, name (.upsertJob row) = "upsert_cron_job") (ids : Nat → JobId) (now : Instant)
    (place : Nat) (specs : List JobSpec) : Blunt name (upsertFrom ids now place specs) := by
  induction specs generalizing place with
  | nil => exact .pure _
  | cons spec rest ih =>
    rw [upsertFrom_cons]
    refine .bind (.ofOutcome _) fun fresh => .query_bind rfl (named _) fun answer => ?_
    exact .bind (.ofExcept _) fun job => .bind (ih _) fun jobs => .pure _

/-- A definition is sent, and the next one only after a job has been read. -/
theorem course_upsertFrom_cons (course : Course (upsertFrom ids now place (spec :: specs)) log r) :
    (log = [] ∧ ∃ h, r = .error h) ∨
    ∃ fresh, Job.create (ids place) spec now = .ok fresh ∧
      ((∃ fault, log = [⟨.upsertJob (JobRow.ofJob fresh).toRow, .error fault⟩] ∧ ∃ h, r = .error h) ∨
      ∃ answer back, log = ⟨.upsertJob (JobRow.ofJob fresh).toRow, .ok answer⟩ :: back ∧
        ((∃ fault, readJob answer = .error fault ∧ back = [] ∧ r = .error (.refused fault)) ∨
        ∃ job r', readJob answer = .ok job ∧ Course (upsertFrom ids now (place + 1) specs) back r' ∧
          r = r'.map (job :: ·))) := by
  rw [upsertFrom_cons] at course
  rcases course_ofOutcome_bind_iff.mp course with ⟨h, -, rfl, rfl⟩ | ⟨fresh, made, sending⟩
  · exact Or.inl ⟨rfl, _, rfl⟩
  · refine Or.inr ⟨fresh, made, ?_⟩
    rcases course_query_bind_iff.mp sending with ⟨fault, rfl, rfl⟩ | ⟨answer, back, rfl, reading⟩
    · exact Or.inl ⟨fault, rfl, _, rfl⟩
    · refine Or.inr ⟨answer, back, rfl, ?_⟩
      rcases course_ofExcept_bind_iff.mp reading with ⟨fault, hread, rfl, rfl⟩ | ⟨job, hread, going⟩
      · exact Or.inl ⟨fault, hread, rfl, rfl⟩
      · obtain ⟨r', tail, rfl⟩ := course_map_iff.mp going
        exact Or.inr ⟨job, r', hread, tail, rfl⟩

theorem complete_upsertFrom {jobs : List Job} (course : Course (upsertFrom ids now place specs) log (.ok jobs)) :
    List.Forall₂ (fun (spec, place) e => ∃ fresh, Job.create (ids place) spec now = .ok fresh ∧
      e.statement = .upsertJob (JobRow.ofJob fresh).toRow) (specs.zipIdx place) log ∧
    List.Forall₂ (fun e job => ∃ answer, e.reply = .ok answer ∧ readJob answer = .ok job) log jobs := by
  induction specs generalizing place log jobs with
  | nil =>
    obtain ⟨rfl, same⟩ := course_pure_iff.mp course
    cases same
    exact ⟨.nil, .nil⟩
  | cons spec rest ih =>
    rcases course_upsertFrom_cons course with ⟨-, _, ⟨⟩⟩ | ⟨fresh, made, ⟨_, -, _, ⟨⟩⟩ | ⟨answer, back, rfl, reading⟩⟩
    rcases reading with ⟨_, -, -, ⟨⟩⟩ | ⟨job, r', hread, tail, same⟩
    cases r' with
    | error h => cases same
    | ok later =>
      cases same
      obtain ⟨sent, told⟩ := ih tail
      rw [List.zipIdx_cons]
      exact ⟨.cons ⟨fresh, made, rfl⟩ sent, .cons ⟨answer, rfl, hread⟩ told⟩

theorem halts_upsertFrom {front : List Exchange} {row : Row} {answer : Answer} {fault : StoreFault}
    (bad : readJob answer = .error fault) :
    Halts (upsertFrom ids now place specs) (front ++ [⟨.upsertJob row, .ok answer⟩]) (.refused fault) := by
  intro rest r course
  rw [List.append_assoc, List.singleton_append] at course
  -- the answer may be to any of the definitions: each one either is what has been sent first, or has a job
  induction specs generalizing place front r with
  | nil =>
    obtain ⟨hlog, -⟩ := course_pure_iff.mp course
    simp at hlog
  | cons spec specs ih =>
    rcases course_upsertFrom_cons course with ⟨hlog, -⟩ | ⟨fresh, -, ⟨_, hlog, -⟩ | ⟨given, back, hlog, reading⟩⟩
    · simp at hlog
    · cases front with
      | nil => simp at hlog
      | cons x front => simp at hlog
    · cases front with
      | nil =>
        obtain ⟨same, rfl⟩ := List.cons.inj hlog
        cases same
        rcases reading with ⟨_, hread, rfl, rfl⟩ | ⟨job, _, hread, -, -⟩
        · rw [bad] at hread
          cases hread
          exact ⟨rfl, rfl⟩
        · cases bad.symm.trans hread
      | cons x front =>
        obtain ⟨-, rfl⟩ := List.cons.inj hlog
        rcases reading with ⟨_, -, hback, -⟩ | ⟨job, r', -, tail, rfl⟩
        · simp at hback
        · obtain ⟨rfl, rfl⟩ := ih _ tail
          exact ⟨rfl, rfl⟩

end

/-! ### Fires of cron jobs -/

section
variable {ids : Nat → TaskId} {now : Instant} {maxAttempts place : Nat} {row : Row} {rows : List Row}
  {r : Except (Halt StoreFault) (List FiredJob)}

theorem blunt_fireFrom (named : ∀ id changes, name (.updateJob id changes) = "advance_cron_job") (ids : Nat → TaskId)
    (now : Instant) (maxAttempts place : Nat) (rows : List Row) :
    Blunt name (fireFrom ids now maxAttempts place rows) := by
  induction rows generalizing place with
  | nil => exact .pure _
  | cons row rest ih =>
    refine .bind (.ofExcept _) fun job => .bind (.ofOutcome _) fun (job, fire) => .query_bind rfl (named _ _) fun _ => ?_
    exact .bind (ih _) fun fired => .pure _

/-- A job that fires moves on, and then it is the turn of the next one. -/
theorem course_fireFrom_cons (course : Course (fireFrom ids now maxAttempts place (row :: rows)) log r) :
    (∃ h, judged (decodeJob row) (·.fire (ids place) now maxAttempts) = .error h ∧ log = [] ∧ r = .error h) ∨
    ∃ f : FiredJob, judged (decodeJob row) (·.fire (ids place) now maxAttempts) = .ok (f.job, f.fire) ∧
      ((∃ fault, log = [⟨.updateJob f.job.id (jobChanges f.job), .error fault⟩] ∧ ∃ h, r = .error h) ∨
      ∃ answer back r', log = ⟨.updateJob f.job.id (jobChanges f.job), .ok answer⟩ :: back ∧
        Course (fireFrom ids now maxAttempts (place + 1) rows) back r' ∧ r = r'.map (f :: ·)) := by
  rcases course_judged_iff.mp course with ⟨h, hj, rfl, rfl⟩ | ⟨⟨job, fire⟩, hj, moving⟩
  · exact Or.inl ⟨h, hj, rfl, rfl⟩
  · refine Or.inr ⟨⟨job, fire⟩, hj, ?_⟩
    rcases course_query_bind_iff.mp moving with ⟨fault, rfl, rfl⟩ | ⟨answer, back, rfl, going⟩
    · exact Or.inl ⟨fault, rfl, _, rfl⟩
    · obtain ⟨r', tail, rfl⟩ := course_map_iff.mp going
      exact Or.inr ⟨answer, back, r', rfl, tail, rfl⟩

theorem complete_fireFrom {fired : List FiredJob}
    (course : Course (fireFrom ids now maxAttempts place rows) log (.ok fired)) :
    List.Forall₂ (fun (row, place) f => judged (decodeJob row) (·.fire (ids place) now maxAttempts) = .ok (f.job, f.fire))
      (rows.zipIdx place) fired ∧
    log.map (·.statement) = fired.map fun f => .updateJob f.job.id (jobChanges f.job) := by
  induction rows generalizing place log fired with
  | nil =>
    obtain ⟨rfl, same⟩ := course_pure_iff.mp course
    cases same
    exact ⟨.nil, rfl⟩
  | cons row rest ih =>
    rcases course_fireFrom_cons course with ⟨_, -, -, ⟨⟩⟩ | ⟨f, hj, ⟨_, -, _, ⟨⟩⟩ | ⟨answer, back, r', rfl, tail, same⟩⟩
    cases r' with
    | error h => cases same
    | ok later =>
      cases same
      obtain ⟨moved, told⟩ := ih tail
      rw [List.zipIdx_cons, List.map_cons, told]
      exact ⟨.cons hj moved, rfl⟩

/-- No more jobs move on than there are in front of one that does not fire. -/
theorem course_fireFrom_unfit {k : Nat} {h : Halt StoreFault}
    (course : Course (fireFrom ids now maxAttempts place rows) log r) (next : rows[k]? = some row)
    (bad : judged (decodeJob row) (·.fire (ids (place + k)) now maxAttempts) = .error h) :
    (∃ h', r = .error h') ∧ log.length ≤ k ∧ (log.length = k → Answered log → r = .error h) := by
  -- another fault may come first, so nothing is said about which one it is unless all jobs in front have moved on
  induction rows generalizing place k log r with
  | nil => cases next
  | cons row rest ih =>
    rcases course_fireFrom_cons course with ⟨h', hj, rfl, rfl⟩ | ⟨f, hj, moving⟩
    · refine ⟨⟨h', rfl⟩, Nat.zero_le _, ?_⟩
      rintro rfl -
      cases next
      cases hj.symm.trans bad
      rfl
    · cases k with
      | zero =>
        cases next
        cases bad.symm.trans hj
      | succ k =>
        rcases moving with ⟨fault, rfl, h', rfl⟩ | ⟨answer, back, r', rfl, tail, rfl⟩
        · exact ⟨⟨h', rfl⟩, by simp, fun _ answered => absurd (List.mem_singleton_self _) answered.absurd⟩
        · rw [← Nat.add_assoc, Nat.add_right_comm] at bad
          obtain ⟨⟨h', rfl⟩, few, last⟩ := ih tail next bad
          refine ⟨⟨h', rfl⟩, Nat.succ_le_succ few, fun all answered => ?_⟩
          cases last (Nat.succ.inj all) answered.tail
          rfl

def fireRows (ids : Nat → TaskId) (now : Instant) (limit maxAttempts : Nat) : Session (List FiredJob) := do
  let answer ← query "select_due_cron_jobs" (.selectDue now (int8Of limit))
  let fired ← fireFrom ids now maxAttempts 0 answer.rows
  insertRows (fired.map (·.fire.task))
  return fired

theorem complete_fireRows {limit : Nat} {fired : List FiredJob}
    (course : Course (fireRows ids now limit maxAttempts) log (.ok fired)) :
    (fireDue ids now limit maxAttempts).Complete log fired := by
  rcases course_query_bind_iff.mp course with ⟨_, -, ⟨⟩⟩ | ⟨answer, _, rfl, firing⟩
  rcases course_bind_iff.mp firing with ⟨_, -, ⟨⟩⟩ | ⟨front, given, _, rfl, moving, writing⟩
  rcases course_bind_iff.mp writing with ⟨_, -, ⟨⟩⟩ | ⟨middle, _, _, rfl, inserting, stop⟩
  obtain ⟨rfl, same⟩ := course_pure_iff.mp stop
  cases same
  obtain ⟨fires, moved⟩ := complete_fireFrom moving
  refine ⟨answer, _, rfl, fires, ?_⟩
  rw [List.append_nil, List.map_append, moved, course_insertRows_ok inserting, List.map_map]
  rfl

theorem halts_fireRows {limit : Nat} {answer : Answer} {moved : List Exchange} {h : Halt StoreFault}
    (answered : Answered moved) (next : answer.rows[moved.length]? = some row)
    (bad : judged (decodeJob row) (·.fire (ids moved.length) now maxAttempts) = .error h) :
    Halts (fireRows ids now limit maxAttempts) (⟨.selectDue now (int8Of limit), .ok answer⟩ :: moved) h := by
  intro rest r course
  rw [List.cons_append] at course
  rw [← Nat.zero_add moved.length] at bad
  rcases course_query_bind_iff.mp course with ⟨_, hlog, -⟩ | ⟨given, back, hlog, firing⟩
  · simp at hlog
  · obtain ⟨same, rfl⟩ := List.cons.inj hlog
    cases same
    rcases course_bind_iff.mp firing with ⟨h', moving, rfl⟩ | ⟨front, fired, back, -, moving, -⟩
    · obtain ⟨-, few, last⟩ := course_fireFrom_unfit moving next bad
      rw [List.length_append] at few last
      obtain rfl : rest = [] := List.eq_nil_of_length_eq_zero (by omega)
      rw [List.append_nil] at last
      cases last rfl answered
      exact ⟨rfl, rfl⟩
    · obtain ⟨⟨_, ⟨⟩⟩, -⟩ := course_fireFrom_unfit moving next bad

end

/-! ### All calls -/

/-- The call inside its transaction. -/
def body : (call : Writing) → Session call.Result
  | insertTasks tasks => insertRows tasks
  | changeTask id change => changeRow id change
  | upsertJobs ids specs now => upsertFrom ids now 0 specs
  | fireDue ids now limit maxAttempts => fireRows ids now limit maxAttempts

/-- All calls are transactions, unless there is nothing to write or a definition is not valid. -/
theorem session_cases (call : Writing) :
    call = insertTasks [] ∧ (∀ log r, Course call.session log r → log = [] ∧ ∃ result, r = .ok result) ∨
    (∃ ids specs now cause, call = upsertJobs ids specs now ∧ specs.forM JobSpec.validate = .error cause ∧
      ∀ log r, Course call.session log r → log = [] ∧ r = .error (.refused (.refused cause))) ∨
    call.session = inTransaction call.body ∧
      ∀ ids specs now, call = upsertJobs ids specs now → specs.forM JobSpec.validate = .ok () := by
  cases call with
  | insertTasks tasks =>
    cases tasks with
    | nil =>
      refine Or.inl ⟨rfl, fun log r course => ?_⟩
      obtain ⟨rfl, rfl⟩ := course_pure_iff.mp course
      exact ⟨rfl, _, rfl⟩
    | cons t rest => exact Or.inr (Or.inr ⟨rfl, nofun⟩)
  | changeTask id change => exact Or.inr (Or.inr ⟨session_changeTask id change, nofun⟩)
  | upsertJobs ids specs now =>
    cases valid : specs.forM JobSpec.validate with
    | error cause =>
      refine Or.inr (Or.inl ⟨ids, specs, now, cause, rfl, valid, fun log r course => ?_⟩)
      rw [session, Relational.upsertJobs, valid] at course
      exact course_throw_iff.mp course
    | ok done =>
      refine Or.inr (Or.inr ⟨?_, ?_⟩)
      · rw [session, Relational.upsertJobs, valid]
        rfl
      · rintro _ _ _ ⟨⟩
        exact valid
  | fireDue ids now limit maxAttempts => exact Or.inr (Or.inr ⟨rfl, nofun⟩)

theorem blunt_body (call : Writing) : Blunt call.doing call.body := by
  cases call with
  | insertTasks tasks => exact .insertRows (fun _ => rfl) tasks
  | changeTask id change => exact blunt_changeRow id change
  | upsertJobs ids specs now => exact blunt_upsertFrom (fun _ => rfl) ids now 0 specs
  | fireDue ids now limit maxAttempts =>
    refine .query_bind rfl rfl fun answer => .bind (blunt_fireFrom (fun _ _ => rfl) _ _ _ _ _) fun fired => ?_
    exact .bind (.insertRows (fun _ => rfl) _) fun _ => .pure _

theorem complete_body {call : Writing} {result : call.Result} (course : Course call.body log (.ok result)) :
    call.Complete log result := by
  cases call with
  | insertTasks tasks => exact course_insertRows_ok course
  | changeTask id change => exact complete_changeRow course
  | upsertJobs ids specs now => exact complete_upsertFrom course
  | fireDue ids now limit maxAttempts => exact complete_fireRows course

/-- A call does all or nothing. -/
structure AllOrNothing (call : Writing) (log : List Exchange) (r : Except (Halt StoreFault) call.Result) : Prop where
  /-- Behind what stands in the way nothing is sent but a rollback. -/
  stopped : ∀ front rest h, log = front ++ rest → Stuck call front h →
    rest.map (·.statement) <+: [.rollback] ∧ r = .error h
  /-- Nothing is sent for definitions one of which is not valid. -/
  invalid : ∀ ids specs now, call = upsertJobs ids specs now → (∃ spec ∈ specs, spec.validate ≠ .ok ()) →
    log = [] ∧ ∃ cause, r = .error (.refused (.refused cause))
  /-- No commit is sent before all has been written. -/
  committed : ∀ reply, ⟨.commit, reply⟩ ∈ log → ∃ opened body result,
    log = ⟨.begin, .ok opened⟩ :: body ++ [⟨.commit, reply⟩] ∧ Answered body ∧ Complete call body result
  /-- There is a result if there is nothing to write, or all has been written and the commit has gone well. -/
  done : ∀ result, r = .ok result → call = insertTasks [] ∧ log = [] ∨ ∃ opened body closed,
    log = ⟨.begin, .ok opened⟩ :: body ++ [⟨.commit, .ok closed⟩] ∧ Answered body ∧ Complete call body result

theorem Stuck.ne_nil {call : Writing} {front : List Exchange} {h : Halt StoreFault} (stuck : Stuck call front h) :
    front ≠ [] := by
  cases stuck <;> simp

/-- In the transaction of a call what stands in its way is followed by a rollback. -/
theorem Stuck.stopped {call : Writing} {front rest : List Exchange} {h : Halt StoreFault}
    {r : Except (Halt StoreFault) call.Result} (stuck : Stuck call front h)
    (course : Course (inTransaction call.body) (front ++ rest) r) :
    rest.map (·.statement) <+: [.rollback] ∧ r = .error h := by
  cases stuck with
  | failed sent =>
    rw [List.append_assoc, List.singleton_append] at course
    exact (blunt_body call).inTransaction rfl rfl course sent
  | task bad =>
    refine Halts.inTransaction (fun _ _ _ => halts_changeRow bad) (List.cons_ne_nil _ _) ?_ course
    simp [Statement.isControl]
  | job bad =>
    refine Halts.inTransaction (fun _ _ _ => halts_upsertFrom bad) (List.cons_ne_nil _ _) ?_ course
    simp [Statement.isControl]
  | @due ids now limit maxAttempts opened answer moved row h earlier next bad =>
    have answered : Answered moved := by
      intro e he
      obtain ⟨_, _, reply, rfl⟩ := earlier e he
      exact ⟨rfl, reply, rfl⟩
    have opening : Course (inTransaction (fireRows ids now limit maxAttempts))
      ([opened] ++ (⟨.selectDue now (int8Of limit), .ok answer⟩ :: moved) ++ rest) r := course
    refine Halts.inTransaction ?_ (List.cons_ne_nil _ _) ?_ opening
    · rintro _ _ ⟨⟩
      exact halts_fireRows answered next bad
    · intro e he
      rcases List.mem_cons.mp he with rfl | he
      · rfl
      · exact (answered e he).1

theorem AllOrNothing.of_course {call : Writing} {r : Except (Halt StoreFault) call.Result}
    (course : Course call.session log r) : AllOrNothing call log r := by
  rcases call.session_cases with ⟨rfl, empty⟩ | ⟨ids, specs, now, cause, rfl, -, refused⟩ | ⟨session, valid⟩
  · obtain ⟨rfl, result, rfl⟩ := empty _ _ course
    refine ⟨fun front rest h hlog stuck => ?_, nofun, nofun, fun _ _ => Or.inl ⟨rfl, rfl⟩⟩
    exact absurd (List.append_eq_nil_iff.mp hlog.symm).1 stuck.ne_nil
  · obtain ⟨rfl, rfl⟩ := refused _ _ course
    refine ⟨fun front rest h hlog stuck => ?_, fun _ _ _ _ _ => ⟨rfl, cause, rfl⟩, nofun, nofun⟩
    exact absurd (List.append_eq_nil_iff.mp hlog.symm).1 stuck.ne_nil
  · rw [session] at course
    have committed : ∀ reply, ⟨.commit, reply⟩ ∈ log → ∃ opened body result,
        log = ⟨.begin, .ok opened⟩ :: body ++ [⟨.commit, reply⟩] ∧ Answered body ∧ Complete call body result := by
      intro reply mem
      obtain ⟨opened, body, result, hlog, answered, inner⟩ := (blunt_body call).committed course mem
      exact ⟨opened, body, result, hlog, answered, complete_body inner⟩
    refine ⟨?_, ?_, committed, ?_⟩
    · rintro front rest h rfl stuck
      exact stuck.stopped course
    · rintro ids specs now same ⟨spec, mem, bad⟩
      exact absurd (Store.forM_eq_ok_iff.mp (valid ids specs now same) spec mem) bad
    · rintro result rfl
      rcases course_inTransaction_iff.mp course with
        ⟨_, -, ⟨⟩⟩ | ⟨opened, body, ⟨_, _, -, ⟨⟩, -⟩ | ⟨a, fault | closed, inner, rfl, same⟩⟩
      · cases same
      · cases same
        exact Or.inr ⟨opened, body, closed, rfl, (blunt_body call _ _ inner).answered_of_ok, complete_body inner⟩

/-- Whatever a database replies, a call that writes does all or nothing. -/
theorem all_or_nothing {σ : Type} (database : σ → Statement → Reply × σ) (state : σ) (call : Writing) :
    AllOrNothing call (call.session.run.exchanges database state) (call.session.run.run database state).1 :=
  .of_course (Dialogue.course_exchanges database call.session.run state)

end Writing
end Relational
end DurableQueue
