import DurableQueue.Proofs.Job.Firing
import DurableQueue.Proofs.Relational.WriteBack

/-! Rows and what is read from them. Of a task a row cuts down the counters alone, and a row is read if its word for the
    status is known and no counter is below zero; then the task that it is read as has this row and no other. Of a new
    job a row keeps the whole seconds of the delay and all else. The values are those that a statement carries. -/

namespace DurableQueue

namespace TaskStatus

theorem ofWord?_isSome_iff {word : String} :
    (ofWord? word).isSome = true ↔ word ∈ ["pending", "running", "completed", "failed"] := by
  constructor
  · intro known
    obtain ⟨status, found⟩ := Option.isSome_iff_exists.mp known
    rw [← word_of_ofWord? found]
    cases status <;> decide
  · simp only [List.mem_cons, List.not_mem_nil, or_false]
    rintro (rfl | rfl | rfl | rfl) <;> decide

end TaskStatus

namespace Job

/-- The job with the whole seconds of its delay. -/
def inSeconds (job : Job) : Job := { job with delay := .ofSeconds job.delay.seconds }

theorem inSeconds_eq_iff {job : Job} : job.inSeconds = job ↔ job.delay.subsecond = 0 := by
  rw [← Span.ofSeconds_seconds_iff]
  constructor
  · intro same
    exact congrArg Job.delay same
  · intro whole
    rw [inSeconds, whole]

/-- With a shorter delay a job fires as before, and what it makes may run earlier. -/
theorem fire_inSeconds {job next : Job} {id : TaskId} {now : Instant} {maxAttempts : Nat} {fire : Fire}
    (here : now.InRange) (fires : job.fire id now maxAttempts = .ok (next, fire)) :
    fire.task.runAfter = now.add job.delay ∧ job.inSeconds.fire id now maxAttempts =
      .ok (next.inSeconds, { fire with task := { fire.task with runAfter := now.add job.inSeconds.delay } }) := by
  obtain ⟨due, runAfter, later, delayed, found, rfl, rfl⟩ := fire_eq_ok.mp fires
  obtain ⟨short, inside, sum⟩ := Instant.of_delayed delayed
  have less : job.inSeconds.delay ≤ job.delay := Span.ofSeconds_seconds_le _
  have earlier : now.delayed job.inSeconds.delay = .ok (now.add job.inSeconds.delay) :=
    Instant.delayed_eq_ok here (Nat.le_trans less short) (Int.le_trans (Instant.second_add_le less) inside)
  exact ⟨sum.symm, fire_eq_ok.mpr ⟨due, _, later, earlier, found, rfl, rfl⟩⟩

end Job

namespace Relational

/-! ### Tasks -/

namespace TaskRow

variable {r : TaskRow}

theorem toTask_unknown (unknown : TaskStatus.ofWord? r.status = none) :
    r.toTask = .error (.refused (.unknownTaskStatus r.status)) := by
  rw [toTask, unknown]
  rfl

theorem counterOf_negative {n : Int} (negative : n < 0) : counterOf n = .error .negative := if_pos negative

theorem counterOf_toNat {n : Int} (counts : 0 ≤ n) : counterOf n = .ok n.toNat := if_neg (Int.not_lt.mpr counts)

theorem toTask_negative {status : TaskStatus} (known : TaskStatus.ofWord? r.status = some status)
    (negative : r.maxAttempts < 0 ∨ r.attempts < 0) : r.toTask = .error .negative := by
  rw [toTask, known]
  by_cases first : r.maxAttempts < 0
  · rw [counterOf_negative first]
    rfl
  · rw [counterOf_toNat (Int.not_lt.mp first), counterOf_negative (negative.resolve_left first)]
    rfl

theorem exists_toTask {status : TaskStatus} (known : TaskStatus.ofWord? r.status = some status)
    (allowed : 0 ≤ r.maxAttempts) (spent : 0 ≤ r.attempts) : ∃ t, r.toTask = .ok t := by
  rw [toTask, known, counterOf_toNat allowed, counterOf_toNat spent]
  exact ⟨_, rfl⟩

end TaskRow

theorem decodeTask_columns {row : Row} {r : TaskRow} (columns : TaskRow.ofRow row = .ok r) :
    decodeTask row = r.toTask.mapError (RowFault.storeFault "task") := by
  rw [decodeTask, columns]
  rfl

/-- A row is written again as it has been read: what it has room for is not cut down. -/
theorem ofTask_of_decodeTask {row : Row} {r : TaskRow} {t : Task} (columns : TaskRow.ofRow row = .ok r)
    (fits : row.Fits) (reads : decodeTask row = .ok t) : TaskRow.ofTask t = r := by
  obtain ⟨few, fewer⟩ := fits.counters reads
  have same : TaskRow.exact t = r := by
    cases (decodeTask_eq_ok_iff.mp reads).symm.trans columns
    rfl
  rw [← same, TaskRow.exact, TaskRow.ofTask, int4Of_eq few, int4Of_eq fewer]

/-- What is wrong with a row that is not one of a task. The word for the status is looked at first. -/
def TaskRow.complaint (r : TaskRow) : RowFault :=
  if (TaskStatus.ofWord? r.status).isSome then .negative else .refused (.unknownTaskStatus r.status)

theorem exists_decodeTask_iff {row : Row} {r : TaskRow} (columns : TaskRow.ofRow row = .ok r) :
    (∃ t, decodeTask row = .ok t) ↔
      (TaskStatus.ofWord? r.status).isSome = true ∧ 0 ≤ r.maxAttempts ∧ 0 ≤ r.attempts := by
  simp only [decodeTask_columns columns, mapError_eq_ok_iff]
  constructor
  · rintro ⟨t, reads⟩
    rw [TaskRow.toTask_eq_ok_iff.mp reads]
    exact ⟨by simp [TaskRow.exact, TaskRow.ofTask, TaskStatus.ofWord?_word], Int.natCast_nonneg _, Int.natCast_nonneg _⟩
  · rintro ⟨known, allowed, spent⟩
    obtain ⟨status, known⟩ := Option.isSome_iff_exists.mp known
    exact TaskRow.exists_toTask known allowed spent

theorem decodeTask_error {row : Row} {r : TaskRow} {fault : StoreFault} (columns : TaskRow.ofRow row = .ok r)
    (refused : decodeTask row = .error fault) : fault = r.complaint.storeFault "task" := by
  cases known : TaskStatus.ofWord? r.status with
  | none =>
    rw [decodeTask_columns columns, TaskRow.toTask_unknown known] at refused
    cases refused
    rw [TaskRow.complaint, known]
    rfl
  | some status =>
    have negative : r.maxAttempts < 0 ∨ r.attempts < 0 := by
      by_contra counts
      simp only [not_or, Int.not_lt] at counts
      obtain ⟨t, reads⟩ := (exists_decodeTask_iff columns).mpr ⟨Option.isSome_iff_exists.mpr ⟨_, known⟩, counts⟩
      cases reads.symm.trans refused
    rw [decodeTask_columns columns, TaskRow.toTask_negative known negative] at refused
    cases refused
    rw [TaskRow.complaint, known]
    rfl

/-- The row of a task is read as this task with each counter cut down to what a column holds, which leaves the attempts
    within their limit. Of all rows those are read that have one of four words for the status and no counter below zero;
    what is read then holds their counters, and is written as the same row again. All others are refused as a fault of
    the storage. -/
theorem task_rows_exact :
    (∀ t : Task, decodeTask (TaskRow.ofTask t).toRow =
        .ok { t with maxAttempts := min t.maxAttempts greatestInt4, attempts := min t.attempts greatestInt4 } ∧
      (t.attempts ≤ t.maxAttempts → min t.attempts greatestInt4 ≤ min t.maxAttempts greatestInt4) ∧
      (t.maxAttempts ≤ greatestInt4 → t.attempts ≤ greatestInt4 → decodeTask (TaskRow.ofTask t).toRow = .ok t)) ∧
    ∀ (row : Row) (r : TaskRow), TaskRow.ofRow row = .ok r → row.Fits →
      ((∃ t, decodeTask row = .ok t) ↔
        r.status ∈ ["pending", "running", "completed", "failed"] ∧ 0 ≤ r.maxAttempts ∧ 0 ≤ r.attempts) ∧
      (∀ t, decodeTask row = .ok t → TaskRow.ofTask t = r ∧ t.maxAttempts = r.maxAttempts ∧ t.attempts = r.attempts) ∧
      ∀ fault, decodeTask row = .error fault →
        fault = .reported .storage ("failed to decode task row: " ++ r.complaint.message) := by
  refine ⟨fun t => ⟨decodeTask_ofTask t, fun within => ?_, decodeTask_toRow⟩, fun row r columns fits => ⟨?_, ?_, ?_⟩⟩
  · omega
  · rw [exists_decodeTask_iff columns, TaskStatus.ofWord?_isSome_iff]
  · intro t reads
    have same := ofTask_of_decodeTask columns fits reads
    obtain ⟨few, fewer⟩ := fits.counters reads
    refine ⟨same, ?_, ?_⟩
    · rw [← same, TaskRow.ofTask, int4Of_eq few]
    · rw [← same, TaskRow.ofTask, int4Of_eq fewer]
  · intro fault refused
    exact decodeTask_error columns refused

/-- A task with more attempts than a column holds. -/
def eager : Task := Task.create (.made 0) ⟨"a", [], none, 4294967295⟩ .epoch

/-- A row whose status is no word for one. -/
def lapsed : TaskRow := { TaskRow.ofTask eager with status := "lapsed" }

/-- A row with a counter below zero. -/
def indebted : TaskRow := { TaskRow.ofTask eager with attempts := -1 }

theorem task_rows_exact_eager :
    decodeTask (TaskRow.ofTask eager).toRow = .ok { eager with maxAttempts := 2147483647 } ∧
    TaskRow.ofTask { eager with maxAttempts := 2147483647 } = TaskRow.ofTask eager ∧
    (∃ fault, decodeTask lapsed.toRow = .error fault ∧
      fault = .reported .storage "failed to decode task row: validation failed: unknown task status `lapsed`") ∧
    ∃ fault, decodeTask indebted.toRow = .error fault ∧
      fault = .reported .storage "failed to decode task row: number too small to fit in target type" := by
  obtain ⟨written, readable⟩ := task_rows_exact
  have cut := (written eager).1
  have refused {r : TaskRow} (fits : r.toRow.Fits)
      (unreadable : ¬(r.status ∈ ["pending", "running", "completed", "failed"] ∧ 0 ≤ r.maxAttempts ∧ 0 ≤ r.attempts)) :
      ∃ fault, decodeTask r.toRow = .error fault ∧
        fault = .reported .storage ("failed to decode task row: " ++ r.complaint.message) := by
    obtain ⟨reads, -, faulty⟩ := readable r.toRow r (TaskRow.ofRow_toRow r) fits
    cases result : decodeTask r.toRow with
    | ok t => exact absurd (reads.mp ⟨t, result⟩) unreadable
    | error fault => exact ⟨fault, rfl, faulty fault result⟩
  have again := ((readable _ _ (TaskRow.ofRow_toRow _) (toRow_fits eager)).2.1 _ cut).1
  exact ⟨cut, again, refused (TaskRow.fits_iff.mpr ⟨⟨by decide, by decide⟩, ⟨by decide, by decide⟩⟩) (by decide),
    refused (TaskRow.fits_iff.mpr ⟨⟨by decide, by decide⟩, ⟨by decide, by decide⟩⟩) (by decide)⟩

/-! ### Cron jobs -/

/-- Where the search for its first time ends, a definition that is accepted makes a job with all that it says, disabled
    if there is no such time. The row of this job is read as the job with the whole seconds of its delay, so as the job
    itself exactly if it has no others. What is read fires whenever the job does, and what is made then is the same but
    for the parts of a second in the delay. -/
theorem job_rows_exact (id : JobId) {spec : JobSpec} {now : Instant} {next : Option Instant}
    (valid : spec.validate = .ok ()) (found : (spec.expression.next now : Outcome Refusal (Option Instant)) = .ok next) :
    ∃ job, Job.create id spec now = .ok job ∧ job.expression = spec.expression ∧
      job.status = (if next.isSome then spec.status else .disabled) ∧ job.payload = spec.payload ∧
      job.delay = spec.delay ∧ decodeJob (JobRow.ofJob job).toRow = .ok job.inSeconds ∧
      (job.inSeconds = job ↔ spec.delay.subsecond = 0) ∧
      ∀ (taskId : TaskId) (t : Instant) (maxAttempts : Nat) (after : Job) (fire : Fire), t.InRange →
        job.fire taskId t maxAttempts = .ok (after, fire) →
        fire.task.runAfter = t.add spec.delay ∧ job.inSeconds.fire taskId t maxAttempts =
          .ok (after.inSeconds, { fire with
            task := { fire.task with runAfter := t.add (.ofSeconds spec.delay.seconds) } }) := by
  refine ⟨_, Job.create_eq_ok.mpr ⟨next, found, rfl⟩, rfl, rfl, rfl, rfl, ?_, Job.inSeconds_eq_iff, ?_⟩
  · exact decodeJob_ofJob (seconds_le_of_validate valid)
  · intro taskId t maxAttempts after fire here fires
    exact Job.fire_inSeconds here fires

/-- The definition of a job that fires every minute and whose tasks may run a second and a half later. -/
def tardy : JobSpec := { JobSpec.plain "a" .everyMinute with delay := ⟨1500000000⟩ }

theorem next_tardy : (tardy.expression.next .epoch : Outcome Refusal (Option Instant)) = .ok (some ⟨60, 0⟩) :=
  Expression.next_eq_ok.mpr ⟨by decide, by decide⟩

theorem job_rows_exact_tardy :
    ∃ job after fire, Job.create (.made 0) tardy .epoch = .ok job ∧
      decodeJob (JobRow.ofJob job).toRow = .ok job.inSeconds ∧ job.status = .active ∧ job.delay.nanos = 1500000000 ∧
      job.fire (.made 0) ⟨60, 0⟩ 3 = .ok (after, fire) ∧ fire.task.runAfter = ⟨61, 500000000⟩ ∧
      job.inSeconds.fire (.made 0) ⟨60, 0⟩ 3 =
        .ok (after.inSeconds, { fire with task := { fire.task with runAfter := ⟨61, 0⟩ } }) := by
  have second : (tardy.expression.next ⟨60, 0⟩ : Outcome Refusal (Option Instant)) = .ok (some ⟨120, 0⟩) :=
    Expression.next_eq_ok.mpr ⟨by decide, by decide⟩
  have valid : tardy.validate = .ok () := by decide
  obtain ⟨job, made, -, status, -, delay, reads, -, fires⟩ := job_rows_exact (.made 0) valid next_tardy
  have fired : ∃ after fire, job.fire (.made 0) ⟨60, 0⟩ 3 = .ok (after, fire) := by
    obtain ⟨_, found, rfl⟩ := Job.create_eq_ok.mp made
    cases next_tardy.symm.trans found
    exact ⟨_, _, Job.fire_eq_ok.mpr ⟨by decide, _, _, rfl, second, rfl, rfl⟩⟩
  obtain ⟨after, fire, fired⟩ := fired
  obtain ⟨late, early⟩ := fires (.made 0) ⟨60, 0⟩ 3 after fire (by decide) fired
  exact ⟨job, after, fire, made, reads, status, congrArg Span.nanos delay, fired, late, early⟩

/-- A delay with parts of a second does not come back from a row. The status is not the one of the definition where the
    schedule has come to its end, and in the last second of the calendar there is no job at all. -/
theorem job_rows_not_whole :
    tardy.validate = .ok () ∧
    (∃ job, Job.create (.made 0) tardy .epoch = .ok job ∧ decodeJob (JobRow.ofJob job).toRow ≠ .ok job) ∧
    (∃ job, Job.create (.made 0) tardy ⟨4133980800, 0⟩ = .ok job ∧ job.status ≠ tardy.status) ∧
    Job.create (.made 0) tardy ⟨Instant.lastSecond, 0⟩ = .crash := by
  have last : (tardy.expression.next ⟨4133980800, 0⟩ : Outcome Refusal (Option Instant)) = .ok none :=
    Expression.next_eq_ok.mpr ⟨by decide, by decide⟩
  have beyond : (tardy.expression.next ⟨Instant.lastSecond, 0⟩ : Outcome Refusal (Option Instant)) = .crash :=
    Expression.next_eq_crash.mpr (by decide)
  refine ⟨by decide, ⟨_, Job.create_eq_ok.mpr ⟨_, next_tardy, rfl⟩, ?_⟩,
    ⟨_, Job.create_eq_ok.mpr ⟨_, last, rfl⟩, by decide⟩, ?_⟩
  · rw [decodeJob_ofJob (by decide)]
    intro same
    cases same
  · rw [Job.create, beyond]
    rfl

end Relational
end DurableQueue
