import DurableQueue.Proofs.Relational.WriteBack

/-! The columns of the two tables with the conditions that the database puts on their values, and the rows of what can be in
    them. A task or a job is made from something that has been validated, and no action takes from it what its validation
    has shown; the other conditions hold of every row, as numbers are cut down to what fits and never lie below zero. -/

namespace DurableQueue

/-! ### What can be stored -/

/-- A job as it can come to be: made by a valid definition, and since then redefined by others or fired. -/
inductive Job.Arises : Job → Prop where
  | created {id : JobId} {spec : JobSpec} {now : Instant} {job : Job} (valid : spec.validate = .ok ())
      (made : Job.create id spec now = .ok job) : Arises job
  | applied {job next : Job} {spec : JobSpec} {now : Instant} (before : Arises job) (valid : spec.validate = .ok ())
      (moved : job.apply spec now = .ok next) : Arises next
  | fired {job next : Job} {id : TaskId} {now : Instant} {maxAttempts : Nat} {fire : Fire} (before : Arises job)
      (moved : job.fire id now maxAttempts = .ok (next, fire)) : Arises next

/-- A task as it can come to be: made from a valid description or by the fire of a job, and since then moved. -/
inductive Task.Arises : Task → Prop where
  | published {id : TaskId} {new : NewTask} {checked now : Instant} (valid : new.validate checked = .ok ()) :
      Arises (.create id new now)
  | emitted {job next : Job} {id : TaskId} {now : Instant} {maxAttempts : Nat} {fire : Fire} (before : job.Arises)
      (moved : job.fire id now maxAttempts = .ok (next, fire)) : Arises fire.task
  | claimed {t u : Task} {now : Instant} (before : Arises t) (moved : t.claim now = .ok u) : Arises u
  | completed {t u : Task} {now : Instant} (before : Arises t) (moved : t.complete now = .ok u) : Arises u
  | failed {t u : Task} {error : String} {now : Instant} {verdict : Verdict} (before : Arises t)
      (moved : t.failAttempt error now = .ok (u, verdict)) : Arises u
  | requeued {t u : Task} {now : Instant} (before : Arises t) (moved : t.requeue now = .ok u) : Arises u
  | reset {t u : Task} {now : Instant} (before : Arises t) (moved : t.resetStuck now = .ok u) : Arises u

theorem Job.Arises.named {job : Job} (h : job.Arises) : job.name ≠ "" ∧ job.subject ≠ "" := by
  induction h with
  | created valid made =>
    obtain ⟨_, -, rfl⟩ := Job.create_eq_ok.mp made
    exact ⟨Relational.name_ne_of_validate valid, (JobSpec.of_validate valid).1⟩
  | applied _ valid moved ih =>
    obtain ⟨_, -, rfl⟩ := Job.apply_eq_ok.mp moved
    exact ⟨ih.1, (JobSpec.of_validate valid).1⟩
  | fired _ moved ih =>
    obtain ⟨-, _, _, -, -, rfl, -⟩ := Job.fire_eq_ok.mp moved
    exact ih

theorem Task.Arises.subject_ne {t : Task} (h : t.Arises) : t.subject ≠ "" := by
  induction h with
  | published valid => exact NewTask.subject_ne_of_validate valid
  | emitted before moved => exact (Job.task_of_fire moved).2 ▸ before.named.2
  | claimed _ moved ih =>
    obtain ⟨-, rfl⟩ := Task.claim_eq_ok.mp moved
    exact ih
  | completed _ moved ih =>
    obtain ⟨-, rfl⟩ := Task.complete_eq_ok.mp moved
    exact ih
  | failed _ moved ih =>
    obtain ⟨-, ⟨-, -, rfl⟩ | ⟨-, _, -, -, rfl⟩⟩ := Task.failAttempt_eq_ok.mp moved
    · exact ih
    · exact ih
  | requeued _ moved ih =>
    obtain ⟨-, _, -, rfl⟩ := Task.requeue_eq_ok.mp moved
    exact ih
  | reset _ moved ih =>
    obtain ⟨-, rfl⟩ := Task.resetStuck_eq_ok.mp moved
    exact ih

namespace Relational

/-! ### Columns -/

/-- The types of columns. -/
inductive ColumnType where
  | uuid
  | text
  | bytes
  | int4
  | int8
  | time

/-- Whether a value is of the type, or null. -/
def ColumnType.holds : ColumnType → Value → Bool
  | _, .null => true
  | .uuid, .uuid _ | .text, .text _ | .bytes, .bytes _ | .int4, .int4 _ | .int8, .int8 _ | .time, .time _ => true
  | _, _ => false

/-- The conditions on the values of a column. -/
inductive Check where
  | notEmpty
  | oneOf (words : List String)
  | notNegative
  deriving DecidableEq

/-- Whether a value meets a condition. Of null no condition is found to be broken. -/
def Check.passes : Check → Value → Bool
  | _, .null => true
  | .notEmpty, .text s => s ≠ ""
  | .oneOf words, .text s => s ∈ words
  | .notNegative, .int4 n | .notNegative, .int8 n => 0 ≤ n
  | _, _ => false

structure Column where
  name : String
  type : ColumnType
  /-- No value of the column is null. -/
  required : Bool := true
  check : Option Check := none

/-- A column takes a value. -/
structure Column.Admits (c : Column) (v : Value) : Prop where
  typed : c.type.holds v = true
  fits : v.Fits
  given : c.required = true → v ≠ .null
  passes : ∀ check ∈ c.check, check.passes v = true

theorem Column.admits_iff {c : Column} {v : Value} : c.Admits v ↔
    c.type.holds v = true ∧ v.Fits ∧ (c.required = true → v ≠ .null) ∧ ∀ check ∈ c.check, check.passes v = true :=
  ⟨fun h => ⟨h.typed, h.fits, h.given, h.passes⟩, fun ⟨typed, fits, given, passes⟩ => ⟨typed, fits, given, passes⟩⟩

instance : DecidablePred Value.Fits
  | .int4 n => inferInstanceAs (Decidable (-2147483648 ≤ n ∧ n ≤ greatestInt4))
  | .int8 n => inferInstanceAs (Decidable (-9223372036854775808 ≤ n ∧ n ≤ greatestInt8))
  | .null | .uuid _ | .text _ | .bytes _ | .time _ => inferInstanceAs (Decidable True)

instance (c : Column) (v : Value) : Decidable (c.Admits v) := decidable_of_iff' _ Column.admits_iff

/-- The columns of a table. -/
abbrev Schema := List Column

namespace Schema

/-- New values for some columns, each of which takes its value. -/
def Takes (schema : Schema) (changes : Row) : Prop := ∀ entry ∈ changes, ∃ c ∈ schema, c.name = entry.1 ∧ c.Admits entry.2

/-- A row with a value for every column. -/
def Admits (schema : Schema) (row : Row) : Prop := row.map (·.1) = schema.map (·.name) ∧ schema.Takes row

instance (schema : Schema) (changes : Row) : Decidable (schema.Takes changes) :=
  inferInstanceAs (Decidable (∀ entry ∈ changes, ∃ c ∈ schema, c.name = entry.1 ∧ c.Admits entry.2))

instance (schema : Schema) (row : Row) : Decidable (schema.Admits row) :=
  inferInstanceAs (Decidable (row.map (·.1) = schema.map (·.name) ∧ schema.Takes row))

variable {schema : Schema} {row changes : Row}

theorem admits_of_forall₂ (h : List.Forall₂ (fun c entry => c.name = entry.1 ∧ c.Admits entry.2) schema row) :
    schema.Admits row := by
  induction h with
  | nil => exact ⟨rfl, nofun⟩
  | @cons c entry _ _ head _ ih =>
    obtain ⟨names, takes⟩ := ih
    refine ⟨by rw [List.map_cons, List.map_cons, names, head.1], List.forall_mem_cons.mpr ⟨?_, ?_⟩⟩
    · exact ⟨c, List.mem_cons_self, head⟩
    · intro entry member
      obtain ⟨c, hc, admits⟩ := takes entry member
      exact ⟨c, List.mem_cons_of_mem _ hc, admits⟩

/-- A row whose columns are given other values is a row of the table still, if these values are taken. -/
theorem Admits.update (h : schema.Admits row) (takes : schema.Takes changes) : schema.Admits (row.update changes) := by
  refine ⟨?_, fun entry member => ?_⟩
  · rw [← h.1, Row.update, List.map_map]
    rfl
  · obtain ⟨⟨column, v⟩, before, rfl⟩ := List.mem_map.mp member
    cases found : changes.lookup column with
    | none =>
      simp only [found]
      exact h.2 _ before
    | some w =>
      simp only [found]
      exact takes _ (Row.mem_of_lookup found)

theorem Takes.filter (h : schema.Takes row) (keep : String × Value → Bool) : schema.Takes (row.filter keep) :=
  fun entry member => h entry (List.mem_of_mem_filter member)

end Schema

/-- The table of tasks. -/
def taskSchema : Schema := [
  { name := "id", type := .uuid },
  { name := "subject", type := .text, check := some .notEmpty },
  { name := "status", type := .text, check := some (.oneOf ["pending", "running", "completed", "failed"]) },
  { name := "run_after", type := .time },
  { name := "payload", type := .bytes },
  { name := "max_attempts", type := .int4, check := some .notNegative },
  { name := "attempts", type := .int4, check := some .notNegative },
  { name := "last_error", type := .text, required := false },
  { name := "last_attempt", type := .time, required := false },
  { name := "created_at", type := .time },
  { name := "updated_at", type := .time }]

/-- The table of cron jobs. -/
def jobSchema : Schema := [
  { name := "id", type := .uuid },
  { name := "name", type := .text, check := some .notEmpty },
  { name := "expression", type := .text },
  { name := "status", type := .text, check := some (.oneOf ["active", "disabled"]) },
  { name := "subject", type := .text, check := some .notEmpty },
  { name := "payload", type := .bytes },
  { name := "task_run_after", type := .int8, check := some .notNegative },
  { name := "next_run_at", type := .time },
  { name := "last_run_at", type := .time, required := false },
  { name := "created_at", type := .time },
  { name := "updated_at", type := .time }]

/-! ### Rows -/

section
variable {name : String} {type : ColumnType} {check : Check} {v : Value}

theorem Column.admits_plain (typed : type.holds v = true) (fits : v.Fits) (given : v ≠ .null) :
    Column.Admits { name, type } v := ⟨typed, fits, fun _ => given, nofun⟩

theorem Column.admits_optional (typed : type.holds v = true) (fits : v.Fits) :
    Column.Admits { name, type, required := false } v := ⟨typed, fits, nofun, nofun⟩

theorem Column.admits_checked (typed : type.holds v = true) (fits : v.Fits) (given : v ≠ .null)
    (passes : check.passes v = true) : Column.Admits { name, type, check := some check } v := by
  refine ⟨typed, fits, fun _ => given, ?_⟩
  rintro _ ⟨⟩
  exact passes

theorem ColumnType.holds_ofText? (s : Option String) : ColumnType.text.holds (.ofText? s) = true := by
  cases s <;> rfl

theorem ColumnType.holds_ofTime? (t : Option Instant) : ColumnType.time.holds (.ofTime? t) = true := by
  cases t <;> rfl

theorem Check.passes_notEmpty {s : String} (h : s ≠ "") : Check.notEmpty.passes (.text s) = true := decide_eq_true h

theorem Check.passes_int4Of (n : Nat) : Check.notNegative.passes (.int4 (int4Of n)) = true :=
  decide_eq_true (Int.natCast_nonneg (min n greatestInt4))

theorem Check.passes_int8Of (n : Nat) : Check.notNegative.passes (.int8 (int8Of n)) = true :=
  decide_eq_true (Int.natCast_nonneg (min n greatestInt8))

end

section
variable {t : Task} {job : Job} {row : Row}

theorem admits_ofTask (h : t.subject ≠ "") : taskSchema.Admits (TaskRow.ofTask t).toRow := by
  refine Schema.admits_of_forall₂ ?_
  have status : (Check.oneOf ["pending", "running", "completed", "failed"]).passes (.text t.status.word) = true := by
    cases t.status <;> decide
  exact .cons ⟨rfl, Column.admits_plain rfl trivial nofun⟩ <|
    .cons ⟨rfl, Column.admits_checked rfl trivial nofun (Check.passes_notEmpty h)⟩ <|
    .cons ⟨rfl, Column.admits_checked rfl trivial nofun status⟩ <|
    .cons ⟨rfl, Column.admits_plain rfl trivial nofun⟩ <|
    .cons ⟨rfl, Column.admits_plain rfl trivial nofun⟩ <|
    .cons ⟨rfl, Column.admits_checked rfl (Value.fits_int4Of _) nofun (Check.passes_int4Of _)⟩ <|
    .cons ⟨rfl, Column.admits_checked rfl (Value.fits_int4Of _) nofun (Check.passes_int4Of _)⟩ <|
    .cons ⟨rfl, Column.admits_optional (ColumnType.holds_ofText? _) (Value.fits_ofText? _)⟩ <|
    .cons ⟨rfl, Column.admits_optional (ColumnType.holds_ofTime? _) (Value.fits_ofTime? _)⟩ <|
    .cons ⟨rfl, Column.admits_plain rfl trivial nofun⟩ <|
    .cons ⟨rfl, Column.admits_plain rfl trivial nofun⟩ .nil

theorem takes_taskChanges (t : Task) : taskSchema.Takes (taskChanges t) := by
  -- the columns that change do not show the subject, so any other one will do
  have given : "any" ≠ "" := by decide
  have changed : taskChanges t = (TaskRow.ofTask { t with subject := "any" }).toRow.filter fun c =>
      ["status", "run_after", "attempts", "last_error", "last_attempt", "updated_at"].contains c.1 := rfl
  rw [changed]
  exact (admits_ofTask given).2.filter _

theorem admits_ofJob (named : job.name ≠ "") (h : job.subject ≠ "") : jobSchema.Admits (JobRow.ofJob job).toRow := by
  refine Schema.admits_of_forall₂ ?_
  have status : (Check.oneOf ["active", "disabled"]).passes (.text job.status.word) = true := by
    cases job.status <;> decide
  exact .cons ⟨rfl, Column.admits_plain rfl trivial nofun⟩ <|
    .cons ⟨rfl, Column.admits_checked rfl trivial nofun (Check.passes_notEmpty named)⟩ <|
    .cons ⟨rfl, Column.admits_plain rfl trivial nofun⟩ <|
    .cons ⟨rfl, Column.admits_checked rfl trivial nofun status⟩ <|
    .cons ⟨rfl, Column.admits_checked rfl trivial nofun (Check.passes_notEmpty h)⟩ <|
    .cons ⟨rfl, Column.admits_plain rfl trivial nofun⟩ <|
    .cons ⟨rfl, Column.admits_checked rfl (Value.fits_int8Of _) nofun (Check.passes_int8Of _)⟩ <|
    .cons ⟨rfl, Column.admits_plain rfl trivial nofun⟩ <|
    .cons ⟨rfl, Column.admits_optional (ColumnType.holds_ofTime? _) (Value.fits_ofTime? _)⟩ <|
    .cons ⟨rfl, Column.admits_plain rfl trivial nofun⟩ <|
    .cons ⟨rfl, Column.admits_plain rfl trivial nofun⟩ .nil

theorem takes_jobChanges (job : Job) : jobSchema.Takes (jobChanges job) := by
  have given : "any" ≠ "" := by decide
  have changed : jobChanges job = (JobRow.ofJob { job with name := "any", subject := "any" }).toRow.filter fun c =>
      ["status", "next_run_at", "last_run_at", "updated_at"].contains c.1 := rfl
  rw [changed]
  exact (admits_ofJob given given).2.filter _

theorem takes_redefinition (h : jobSchema.Takes row) : jobSchema.Takes (JobRow.redefinition row) := h.filter _

/-- The subject of a job that is read from the table is not empty. -/
theorem subject_ne_of_admits (admits : jobSchema.Admits row) (h : decodeJob row = .ok job) : job.subject ≠ "" := by
  obtain ⟨_, reads, -⟩ := decodeJob_eq_ok_iff.mp h
  obtain ⟨-, -, -, -, subject, -⟩ := JobRow.ofRow_eq_ok_iff.mp reads
  obtain ⟨v, found, kind⟩ := Row.exists_of_want subject
  obtain ⟨c, member, named, taken⟩ := admits.2 _ (Row.mem_of_lookup found)
  have checked : ∀ c ∈ jobSchema, c.name = "subject" → c.check = some .notEmpty := by decide
  have passes := taken.passes _ (checked c member named)
  cases v with
  | text s =>
    cases kind
    exact of_decide_eq_true passes
  | _ => cases kind

end

end Relational
end DurableQueue
