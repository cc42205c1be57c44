import DurableQueue.Proofs.Job.Transition
import DurableQueue.Proofs.Json.Decode
import DurableQueue.Proofs.Task.Transition
import DurableQueue.Relational.Rows

/-! What a row stands for, and what becomes of that when some of its columns have other values. A row of tasks stands for one
    task only; of a cron job a row leaves open which delays below zero count as none. -/

namespace DurableQueue

namespace Relational

/-! ### Columns -/

namespace Row

variable {α : Type} {row changes : Row} {column : String} {kind : Value → Option α}

theorem lookup_update (row changes : Row) (column : String) :
    (row.update changes).lookup column = (row.lookup column).map fun v => (changes.lookup column).getD v := by
  induction row with
  | nil => rfl
  | cons c rest ih =>
    obtain ⟨name, v⟩ := c
    by_cases same : column = name
    · subst same
      simp [update]
    · have other : (column == name) = false := by simpa using same
      simp only [update, List.map_cons, List.lookup_cons, other] at ih ⊢
      exact ih

theorem value_update_of_none (h : changes.lookup column = none) (row : Row) :
    (row.update changes).value column = row.value column := by
  rw [value, value, lookup_update, h]
  cases row.lookup column <;> rfl

theorem want_update_of_none (h : changes.lookup column = none) :
    (row.update changes).want column kind = row.want column kind := by
  rw [want, value_update_of_none h, want]

theorem want?_update_of_none (h : changes.lookup column = none) :
    (row.update changes).want? column kind = row.want? column kind := by
  rw [want?, value_update_of_none h, want?]

theorem want_of_lookup {a : α} {v : Value} (h : row.lookup column = some v) (hv : kind v = some a) :
    row.want column kind = .ok a := by
  rw [want, bind_eq_ok_iff]
  refine ⟨v, by rw [value, h], ?_⟩
  rw [hv]

theorem want?_ofText? {text : Option String} (h : row.lookup column = some (.ofText? text)) :
    row.want? column Value.text? = .ok text := by
  rw [want?, value, h]
  cases text <;> rfl

theorem want?_ofTime? {time : Option Instant} (h : row.lookup column = some (.ofTime? time)) :
    row.want? column Value.time? = .ok time := by
  rw [want?, value, h]
  cases time <;> rfl

theorem exists_of_want {a : α} (h : row.want column kind = .ok a) : ∃ v, row.lookup column = some v ∧ kind v = some a := by
  rw [want, value] at h
  cases hv : row.lookup column with
  | none =>
    rw [hv] at h
    cases h
  | some v =>
    rw [hv] at h
    cases hk : kind v with
    | none => simp [bind, Except.bind, hk] at h
    | some b =>
      simp only [bind, Except.bind, hk] at h
      cases h
      exact ⟨v, rfl, hk⟩

theorem exists_of_want? {x : Option α} (h : row.want? column kind = .ok x) : ∃ v, row.lookup column = some v := by
  rw [want?, value] at h
  cases hv : row.lookup column with
  | none =>
    rw [hv] at h
    cases h
  | some v => exact ⟨v, rfl⟩

theorem lookup_update_of_some {old v : Value} (present : row.lookup column = some old)
    (h : changes.lookup column = some v) : (row.update changes).lookup column = some v := by
  rw [lookup_update, present, h]
  rfl

theorem want_update_of_some {a b : α} {v : Value} (present : row.want column kind = .ok a)
    (h : changes.lookup column = some v) (hv : kind v = some b) : (row.update changes).want column kind = .ok b := by
  obtain ⟨old, hold, -⟩ := exists_of_want present
  exact want_of_lookup (lookup_update_of_some hold h) hv

theorem want?_update_ofText? {x : Option α} {text : Option String} (present : row.want? column kind = .ok x)
    (h : changes.lookup column = some (.ofText? text)) : (row.update changes).want? column Value.text? = .ok text := by
  obtain ⟨old, hold⟩ := exists_of_want? present
  exact want?_ofText? (lookup_update_of_some hold h)

theorem want?_update_ofTime? {x : Option α} {time : Option Instant} (present : row.want? column kind = .ok x)
    (h : changes.lookup column = some (.ofTime? time)) : (row.update changes).want? column Value.time? = .ok time := by
  obtain ⟨old, hold⟩ := exists_of_want? present
  exact want?_ofTime? (lookup_update_of_some hold h)

theorem mem_of_lookup {v : Value} (h : row.lookup column = some v) : (column, v) ∈ row := by
  obtain ⟨front, back, rfl, -⟩ := List.lookup_eq_some_iff.mp h
  exact List.mem_append_right _ List.mem_cons_self

end Row

/-! ### Numbers -/

/-- Numbers have as many bits as their columns. -/
def Value.Fits : Value → Prop
  | .int4 n => -2147483648 ≤ n ∧ n ≤ greatestInt4
  | .int8 n => -9223372036854775808 ≤ n ∧ n ≤ greatestInt8
  | _ => True

section
variable (id : Uuid) (s : String) (bs : List UInt8) (t : Instant) (n : Nat)

@[simp] theorem Value.fits_uuid : (Value.uuid id).Fits := trivial

@[simp] theorem Value.fits_text : (Value.text s).Fits := trivial

@[simp] theorem Value.fits_bytes : (Value.bytes bs).Fits := trivial

@[simp] theorem Value.fits_time : (Value.time t).Fits := trivial

@[simp] theorem Value.fits_ofText? (s : Option String) : (Value.ofText? s).Fits := by
  cases s <;> trivial

@[simp] theorem Value.fits_ofTime? (t : Option Instant) : (Value.ofTime? t).Fits := by
  cases t <;> trivial

@[simp] theorem Value.fits_int4Of : (Value.int4 (int4Of n)).Fits := by
  rw [Value.Fits, int4Of]
  omega

@[simp] theorem Value.fits_int8Of : (Value.int8 (int8Of n)).Fits := by
  rw [Value.Fits, int8Of]
  omega

end

/-- The row is one that a database can hold. -/
def Row.Fits (row : Row) : Prop := ∀ c ∈ row, c.2.Fits

theorem Row.Fits.update {row changes : Row} (h : row.Fits) (hc : changes.Fits) : (row.update changes).Fits := by
  intro c hc'
  obtain ⟨⟨column, v⟩, member, rfl⟩ := List.mem_map.mp hc'
  cases found : changes.lookup column with
  | none =>
    simp only [found]
    exact h _ member
  | some w =>
    simp only [found]
    exact hc _ (Row.mem_of_lookup found)

theorem int4Of_eq {n : Nat} (h : n ≤ greatestInt4) : int4Of n = n := by
  rw [int4Of, Nat.min_eq_left h]

theorem int8Of_eq {n : Nat} (h : n ≤ greatestInt8) : int8Of n = n := by
  rw [int8Of, Nat.min_eq_left h]

theorem counterOf_eq_ok_iff {n : Int} {k : Nat} : counterOf n = .ok k ↔ n = k := by
  unfold counterOf
  split
  · simp only [reduceCtorEq, false_iff]
    omega
  · simp only [Except.ok.injEq]
    omega

namespace TaskRow

variable {row : Row} {r : TaskRow} {t u : Task}

theorem ofRow_eq_ok_iff : ofRow row = .ok r ↔
    row.want "id" Value.uuid? = .ok r.id ∧ row.want "subject" Value.text? = .ok r.subject ∧
    row.want "status" Value.text? = .ok r.status ∧ row.want "run_after" Value.time? = .ok r.runAfter ∧
    row.want "payload" Value.bytes? = .ok r.payload ∧ row.want "max_attempts" Value.int4? = .ok r.maxAttempts ∧
    row.want "attempts" Value.int4? = .ok r.attempts ∧ row.want? "last_error" Value.text? = .ok r.lastError ∧
    row.want? "last_attempt" Value.time? = .ok r.lastAttempt ∧ row.want "created_at" Value.time? = .ok r.createdAt ∧
    row.want "updated_at" Value.time? = .ok r.updatedAt := by
  simp only [ofRow, bind_eq_ok_iff, Except.ok.injEq]
  constructor
  · rintro ⟨_, h1, _, h2, _, h3, _, h4, _, h5, _, h6, _, h7, _, h8, _, h9, _, h10, _, h11, rfl⟩
    exact ⟨h1, h2, h3, h4, h5, h6, h7, h8, h9, h10, h11⟩
  · rintro ⟨h1, h2, h3, h4, h5, h6, h7, h8, h9, h10, h11⟩
    exact ⟨_, h1, _, h2, _, h3, _, h4, _, h5, _, h6, _, h7, _, h8, _, h9, _, h10, _, h11, rfl⟩

/-- The columns that change are read as they have been written, and the others as before. -/
theorem ofRow_update (h : ofRow row = .ok r) (u : Task) : ofRow (row.update (taskChanges u)) = .ok { r with
    status := u.status.word
    runAfter := u.runAfter
    attempts := int4Of u.attempts
    lastError := u.lastError
    lastAttempt := u.lastAttempt
    updatedAt := u.updatedAt } := by
  obtain ⟨id, subject, status, runAfter, payload, maxAttempts, attempts, lastError, lastAttempt, createdAt, updatedAt⟩ :=
    ofRow_eq_ok_iff.mp h
  rw [ofRow_eq_ok_iff]
  exact ⟨(Row.want_update_of_none rfl).trans id, (Row.want_update_of_none rfl).trans subject,
    Row.want_update_of_some status rfl rfl, Row.want_update_of_some runAfter rfl rfl,
    (Row.want_update_of_none rfl).trans payload, (Row.want_update_of_none rfl).trans maxAttempts,
    Row.want_update_of_some attempts rfl rfl, Row.want?_update_ofText? lastError rfl,
    Row.want?_update_ofTime? lastAttempt rfl, (Row.want_update_of_none rfl).trans createdAt,
    Row.want_update_of_some updatedAt rfl rfl⟩

theorem ofRow_toRow (r : TaskRow) : ofRow r.toRow = .ok r :=
  ofRow_eq_ok_iff.mpr ⟨rfl, rfl, rfl, rfl, rfl, rfl, rfl, Row.want?_ofText? rfl, Row.want?_ofTime? rfl, rfl, rfl⟩

/-- The columns of a task with all of its counters. -/
def exact (t : Task) : TaskRow := { ofTask t with maxAttempts := t.maxAttempts, attempts := t.attempts }

theorem toTask_eq_ok_iff : r.toTask = .ok t ↔ r = exact t := by
  constructor
  · intro h
    cases hs : TaskStatus.ofWord? r.status with
    | none =>
      rw [toTask, hs] at h
      cases h
    | some status =>
      rw [toTask, hs] at h
      obtain ⟨_, ⟨⟩, reading⟩ := bind_eq_ok_iff.mp h
      obtain ⟨maxAttempts, hmax, reading⟩ := bind_eq_ok_iff.mp reading
      obtain ⟨attempts, hattempts, reading⟩ := bind_eq_ok_iff.mp reading
      cases reading
      rw [exact, ofTask]
      simp only [TaskStatus.word_of_ofWord? hs, ← counterOf_eq_ok_iff.mp hmax, ← counterOf_eq_ok_iff.mp hattempts]
  · rintro rfl
    have maxAttempts : counterOf t.maxAttempts = .ok t.maxAttempts := counterOf_eq_ok_iff.mpr rfl
    have attempts : counterOf t.attempts = .ok t.attempts := counterOf_eq_ok_iff.mpr rfl
    simp only [toTask, exact, ofTask, TaskStatus.ofWord?_word, maxAttempts, attempts]
    rfl

end TaskRow

theorem decodeTask_eq_ok_iff {row : Row} {t : Task} : decodeTask row = .ok t ↔ TaskRow.ofRow row = .ok (.exact t) := by
  rw [decodeTask, mapError_eq_ok_iff, bind_eq_ok_iff]
  constructor
  · rintro ⟨r, hr, reads⟩
    rw [← TaskRow.toTask_eq_ok_iff.mp reads]
    exact mapError_eq_ok_iff.mp hr
  · intro h
    exact ⟨_, mapError_eq_ok_iff.mpr h, TaskRow.toTask_eq_ok_iff.mpr rfl⟩

/-- The row of a task is read as this task with its counters cut down. -/
theorem decodeTask_ofTask (t : Task) : decodeTask (TaskRow.ofTask t).toRow =
    .ok { t with maxAttempts := min t.maxAttempts greatestInt4, attempts := min t.attempts greatestInt4 } :=
  decodeTask_eq_ok_iff.mpr (TaskRow.ofRow_toRow _)

theorem decodeTask_toRow {t : Task} (few : t.maxAttempts ≤ greatestInt4) (fewer : t.attempts ≤ greatestInt4) :
    decodeTask (TaskRow.ofTask t).toRow = .ok t := by
  rw [decodeTask_ofTask, Nat.min_eq_left few, Nat.min_eq_left fewer]

/-- A task that differs only in what is written back is read again. -/
theorem decodeTask_update {row : Row} {t u : Task} (h : decodeTask row = .ok t) (same : t.SameWork u)
    (few : u.attempts ≤ greatestInt4) : decodeTask (row.update (taskChanges u)) = .ok u := by
  rw [decodeTask_eq_ok_iff] at h ⊢
  rw [TaskRow.ofRow_update h u]
  simp only [TaskRow.exact, TaskRow.ofTask, same.id, same.subject, same.payload, same.maxAttempts, same.createdAt,
    int4Of_eq few]

theorem taskChanges_fits (t : Task) : (taskChanges t).Fits := by
  simp [Row.Fits, taskChanges]

theorem TaskRow.fits_iff {r : TaskRow} :
    r.toRow.Fits ↔ (Value.int4 r.maxAttempts).Fits ∧ (Value.int4 r.attempts).Fits := by
  simp [Row.Fits, TaskRow.toRow]

theorem toRow_fits (t : Task) : (TaskRow.ofTask t).toRow.Fits :=
  TaskRow.fits_iff.mpr ⟨Value.fits_int4Of _, Value.fits_int4Of _⟩

theorem Row.Fits.counters {row : Row} {t : Task} (fits : row.Fits) (h : decodeTask row = .ok t) :
    t.maxAttempts ≤ greatestInt4 ∧ t.attempts ≤ greatestInt4 := by
  have bound {column : String} {n : Nat} (h : row.want column Value.int4? = .ok n) : n ≤ greatestInt4 := by
    obtain ⟨v, hv, kind⟩ := exists_of_want h
    have fit := fits _ (mem_of_lookup hv)
    cases v with
    | int4 m =>
      cases kind
      exact Int.ofNat_le.mp fit.2
    | _ => cases kind
  obtain ⟨-, -, -, -, -, maxAttempts, attempts, -⟩ := TaskRow.ofRow_eq_ok_iff.mp (decodeTask_eq_ok_iff.mp h)
  exact ⟨bound maxAttempts, bound attempts⟩

/-! ### Cron jobs -/

namespace JobRow

variable {row : Row} {r : JobRow} {job next : Job}

theorem ofRow_eq_ok_iff : ofRow row = .ok r ↔
    row.want "id" Value.uuid? = .ok r.id ∧ row.want "name" Value.text? = .ok r.name ∧
    row.want "expression" Value.text? = .ok r.expression ∧ row.want "status" Value.text? = .ok r.status ∧
    row.want "subject" Value.text? = .ok r.subject ∧ row.want "payload" Value.bytes? = .ok r.payload ∧
    row.want "task_run_after" Value.int8? = .ok r.delay ∧ row.want "next_run_at" Value.time? = .ok r.nextRunAt ∧
    row.want? "last_run_at" Value.time? = .ok r.lastRunAt ∧ row.want "created_at" Value.time? = .ok r.createdAt ∧
    row.want "updated_at" Value.time? = .ok r.updatedAt := by
  simp only [ofRow, bind_eq_ok_iff, Except.ok.injEq]
  constructor
  · rintro ⟨_, h1, _, h2, _, h3, _, h4, _, h5, _, h6, _, h7, _, h8, _, h9, _, h10, _, h11, rfl⟩
    exact ⟨h1, h2, h3, h4, h5, h6, h7, h8, h9, h10, h11⟩
  · rintro ⟨h1, h2, h3, h4, h5, h6, h7, h8, h9, h10, h11⟩
    exact ⟨_, h1, _, h2, _, h3, _, h4, _, h5, _, h6, _, h7, _, h8, _, h9, _, h10, _, h11, rfl⟩

theorem ofRow_update_fired (h : ofRow row = .ok r) (next : Job) : ofRow (row.update (jobChanges next)) = .ok { r with
    status := next.status.word
    nextRunAt := next.nextRunAt
    lastRunAt := next.lastRunAt
    updatedAt := next.updatedAt } := by
  obtain ⟨id, name, expression, status, subject, payload, delay, nextRunAt, lastRunAt, createdAt, updatedAt⟩ :=
    ofRow_eq_ok_iff.mp h
  rw [ofRow_eq_ok_iff]
  exact ⟨(Row.want_update_of_none rfl).trans id, (Row.want_update_of_none rfl).trans name,
    (Row.want_update_of_none rfl).trans expression, Row.want_update_of_some status rfl rfl,
    (Row.want_update_of_none rfl).trans subject, (Row.want_update_of_none rfl).trans payload,
    (Row.want_update_of_none rfl).trans delay, Row.want_update_of_some nextRunAt rfl rfl,
    Row.want?_update_ofTime? lastRunAt rfl, (Row.want_update_of_none rfl).trans createdAt,
    Row.want_update_of_some updatedAt rfl rfl⟩

/-- The columns of a new job that are put in the place of those of the job with its name. -/
def redefinition (row : Row) : Row := row.filter fun c => redefinedColumns.contains c.1

theorem ofRow_update_redefined (h : ofRow row = .ok r) (fresh : JobRow) :
    ofRow (row.update (redefinition fresh.toRow)) = .ok { r with
      expression := fresh.expression
      status := fresh.status
      subject := fresh.subject
      payload := fresh.payload
      delay := fresh.delay
      updatedAt := fresh.updatedAt } := by
  obtain ⟨id, name, expression, status, subject, payload, delay, nextRunAt, lastRunAt, createdAt, updatedAt⟩ :=
    ofRow_eq_ok_iff.mp h
  rw [ofRow_eq_ok_iff]
  exact ⟨(Row.want_update_of_none rfl).trans id, (Row.want_update_of_none rfl).trans name,
    Row.want_update_of_some expression rfl rfl, Row.want_update_of_some status rfl rfl,
    Row.want_update_of_some subject rfl rfl, Row.want_update_of_some payload rfl rfl,
    Row.want_update_of_some delay rfl rfl, (Row.want_update_of_none rfl).trans nextRunAt,
    (Row.want?_update_of_none rfl).trans lastRunAt, (Row.want_update_of_none rfl).trans createdAt,
    Row.want_update_of_some updatedAt rfl rfl⟩

theorem ofRow_toRow (r : JobRow) : ofRow r.toRow = .ok r :=
  ofRow_eq_ok_iff.mpr ⟨rfl, rfl, rfl, rfl, rfl, rfl, rfl, rfl, Row.want?_ofTime? rfl, rfl, rfl⟩

/-- A row leaves open of the delay of its job only which length below zero it is. -/
theorem toJob_eq_ok_iff :
    r.toJob = .ok job ↔ r = { ofJob job with delay := r.delay } ∧ job.delay = .ofSeconds r.delay.toNat := by
  constructor
  · intro h
    obtain ⟨expression, hread, reading⟩ := bind_eq_ok_iff.mp h
    have source := Json.readExpression_eq_ok_iff.mp (mapError_eq_ok_iff.mp hread)
    cases hs : JobStatus.ofWord? r.status with
    | none =>
      rw [hs] at reading
      cases reading
    | some status =>
      rw [hs] at reading
      cases reading
      refine ⟨?_, rfl⟩
      simp only [ofJob, source, JobStatus.word_of_ofWord? hs]
  · rintro ⟨same, delay⟩
    have expression : r.expression = job.expression.source := congrArg JobRow.expression same
    have status : r.status = job.status.word := congrArg JobRow.status same
    rw [toJob, expression, Json.readExpression_eq_ok_iff.mpr rfl, status, JobStatus.ofWord?_word]
    show Except.ok _ = Except.ok job
    rw [← delay, same]
    rfl

end JobRow

theorem decodeJob_eq_ok_iff {row : Row} {job : Job} : decodeJob row = .ok job ↔
    ∃ delay : Int, JobRow.ofRow row = .ok { JobRow.ofJob job with delay } ∧ job.delay = .ofSeconds delay.toNat := by
  rw [decodeJob, mapError_eq_ok_iff, bind_eq_ok_iff]
  constructor
  · rintro ⟨r, hr, reads⟩
    obtain ⟨same, delay⟩ := JobRow.toJob_eq_ok_iff.mp reads
    exact ⟨r.delay, by rw [← same]; exact mapError_eq_ok_iff.mp hr, delay⟩
  · rintro ⟨delay, hr, reads⟩
    exact ⟨_, mapError_eq_ok_iff.mpr hr, JobRow.toJob_eq_ok_iff.mpr ⟨rfl, reads⟩⟩

theorem decodeJob_update_fired {row : Row} {job : Job} (h : decodeJob row = .ok job) (next : Option Instant)
    (now : Instant) : decodeJob (row.update (jobChanges (job.advance next now))) = .ok (job.advance next now) := by
  obtain ⟨delay, hr, reads⟩ := decodeJob_eq_ok_iff.mp h
  exact decodeJob_eq_ok_iff.mpr ⟨delay, JobRow.ofRow_update_fired hr _, reads⟩

theorem ofSeconds_int8Of {d : Span} (h : d.subsecond = 0) (short : d.seconds ≤ greatestInt8) :
    .ofSeconds (int8Of d.seconds).toNat = d := by
  rw [int8Of_eq short, Int.toNat_natCast, Span.ofSeconds_seconds_iff.mpr h]

theorem decodeJob_update_redefined {row : Row} {job fresh : Job} (h : decodeJob row = .ok job)
    (whole : fresh.delay.subsecond = 0) (short : fresh.delay.seconds ≤ greatestInt8) :
    decodeJob (row.update (JobRow.redefinition (JobRow.ofJob fresh).toRow)) = .ok { job with
      expression := fresh.expression
      status := fresh.status
      subject := fresh.subject
      payload := fresh.payload
      delay := fresh.delay
      updatedAt := fresh.updatedAt } := by
  obtain ⟨delay, hr, -⟩ := decodeJob_eq_ok_iff.mp h
  exact decodeJob_eq_ok_iff.mpr ⟨_, JobRow.ofRow_update_redefined hr _, (ofSeconds_int8Of whole short).symm⟩

/-- The row of a job is read as this job, whose delay has whole seconds then. -/
theorem decodeJob_ofJob {job : Job} (short : job.delay.seconds ≤ greatestInt8) :
    decodeJob (JobRow.ofJob job).toRow = .ok { job with delay := .ofSeconds job.delay.seconds } := by
  refine decodeJob_eq_ok_iff.mpr ⟨_, JobRow.ofRow_toRow _, ?_⟩
  rw [int8Of_eq short, Int.toNat_natCast]

theorem decodeJob_toRow {job : Job} (whole : job.delay.subsecond = 0) (short : job.delay.seconds ≤ greatestInt8) :
    decodeJob (JobRow.ofJob job).toRow = .ok job := by
  rw [decodeJob_ofJob short, Span.ofSeconds_seconds_iff.mpr whole]

end Relational
end DurableQueue
