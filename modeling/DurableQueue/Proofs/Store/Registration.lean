import DurableQueue.Proofs.Store.Unfailing

/-! Definitions are registered by name. What a batch of definitions leaves of a job takes no part of what it was in the
    meantime: its identity and its times come from the job that was stored, or from the one that the first definition of
    the name has made, and everything else from the last definition. So a batch that is registered again at the same time
    finds every job as it would leave it. -/

namespace DurableQueue
namespace Job

variable {job start : Job} {spec last : JobSpec} {id : JobId} {now : Instant}

/-- The job is as a definition says. It is disabled if there is no time to fire after the registration. -/
structure Under (job : Job) (spec : JobSpec) (now : Instant) : Prop where
  name : job.name = spec.name
  expression : job.expression = spec.expression
  subject : job.subject = spec.subject
  payload : job.payload = spec.payload
  delay : job.delay = spec.delay
  status : ∃ next, (spec.expression.next now : Outcome Refusal (Option Instant)) = .ok next ∧
    job.status = if next.isSome then spec.status else .disabled

/-- One job has what is left of another when it is defined anew. -/
structure SameHistory (start job : Job) : Prop where
  id : job.id = start.id
  createdAt : job.createdAt = start.createdAt
  nextRunAt : job.nextRunAt = start.nextRunAt
  lastRunAt : job.lastRunAt = start.lastRunAt

/-- The job under a definition, where the search for its next time ends. -/
def redefined (job : Job) (spec : JobSpec) (now : Instant) : Job :=
  { job with
    expression := spec.expression
    status := statusFor spec.status (spec.expression.schedule.next? now)
    subject := spec.subject
    payload := spec.payload
    delay := spec.delay
    updatedAt := now }

/-- The job that a definition makes the first time, where the search for its next time ends. -/
def fresh (id : JobId) (spec : JobSpec) (now : Instant) : Job where
  id := id
  name := spec.name
  expression := spec.expression
  status := statusFor spec.status (spec.expression.schedule.next? now)
  subject := spec.subject
  payload := spec.payload
  delay := spec.delay
  nextRunAt := (spec.expression.schedule.next? now).getD now
  lastRunAt := none
  createdAt := now
  updatedAt := now

theorem next_eq (goes : (now.add? (.ofSeconds 1)).isSome = true) (x : Expression) :
    (x.next now : Outcome Refusal (Option Instant)) = .ok (x.schedule.next? now) :=
  Expression.next_eq_ok.mpr ⟨goes, rfl⟩

theorem apply_eq_redefined (goes : (now.add? (.ofSeconds 1)).isSome = true) (job : Job) (spec : JobSpec) :
    job.apply spec now = .ok (job.redefined spec now) :=
  apply_eq_ok.mpr ⟨_, next_eq goes spec.expression, rfl⟩

theorem create_eq_fresh (goes : (now.add? (.ofSeconds 1)).isSome = true) (id : JobId) (spec : JobSpec) :
    Job.create id spec now = .ok (fresh id spec now) :=
  create_eq_ok.mpr ⟨_, next_eq goes spec.expression, rfl⟩

/-- The last of two definitions wins. -/
theorem redefined_redefined (job : Job) (spec last : JobSpec) (now : Instant) :
    (job.redefined spec now).redefined last now = job.redefined last now := rfl

/-- A job that has just been made is as its definition says. -/
theorem redefined_fresh (id : JobId) (spec : JobSpec) (now : Instant) :
    (fresh id spec now).redefined spec now = fresh id spec now := by
  simp only [redefined, fresh]

theorem redefined_name (job : Job) (spec : JobSpec) (now : Instant) : (job.redefined spec now).name = job.name := rfl

theorem under_redefined (goes : (now.add? (.ofSeconds 1)).isSome = true) (named : job.name = spec.name) :
    (job.redefined spec now).Under spec now :=
  ⟨named, rfl, rfl, rfl, rfl, _, next_eq goes spec.expression, rfl⟩

theorem sameHistory_redefined : job.SameHistory (job.redefined spec now) := ⟨rfl, rfl, rfl, rfl⟩

end Job

namespace Store
open StoreM Job

variable {s : Store} {ids ids' : Nat → JobId} {specs : List JobSpec} {now : Instant} {jobs : Table Job.name} {name : String}

/-! ### One definition -/

/-- What a definition makes of the job of its name, which there may be already. -/
def registered (id : JobId) (spec : JobSpec) (now : Instant) (jobs : Table Job.name) : Job :=
  ((jobs.get? spec.name).getD (fresh id spec now)).redefined spec now

theorem start_name (id : JobId) (spec : JobSpec) (now : Instant) (jobs : Table Job.name) :
    ((jobs.get? spec.name).getD (fresh id spec now)).name = spec.name := by
  cases stored : jobs.get? spec.name with
  | none => rfl
  | some job => exact Table.key_of_get? stored

theorem upsertJob_eq (goes : (now.add? (.ofSeconds 1)).isSome = true) (id : JobId) (spec : JobSpec) (s : Store) :
    upsertJob id spec now s =
      (.ok (registered id spec now s.jobs), { s with jobs := s.jobs.put (registered id spec now s.jobs) }) := by
  rw [upsertJob_apply, registered]
  cases s.jobs.get? spec.name with
  | none =>
    dsimp only [Option.getD_none]
    rw [create_eq_fresh goes, redefined_fresh]
  | some job =>
    dsimp only [Option.getD_some]
    rw [apply_eq_redefined goes]

/-! ### One definition after the other -/

/-- The jobs that definitions give, and the table that they leave. -/
def registerFrom (ids : Nat → JobId) (now : Instant) : Nat → List JobSpec → Table Job.name → List Job × Table Job.name
  | _, [], jobs => ([], jobs)
  | place, spec :: rest, jobs =>
    let job := registered (ids place) spec now jobs
    let (made, left) := registerFrom ids now (place + 1) rest (jobs.put job)
    (job :: made, left)

theorem upsertFrom_eq (goes : (now.add? (.ofSeconds 1)).isSome = true) (place : Nat) (specs : List JobSpec) (s : Store) :
    upsertFrom ids now place specs s = (.ok (registerFrom ids now place specs s.jobs).1,
      { s with jobs := (registerFrom ids now place specs s.jobs).2 }) := by
  induction specs generalizing place s with
  | nil => rfl
  | cons spec rest ih =>
    rw [upsertFrom]
    simp only [bind_apply, upsertJob_eq goes, ih, pure_apply]
    rfl

section
variable {place : Nat}

theorem registerFrom_under (goes : (now.add? (.ofSeconds 1)).isSome = true) :
    List.Forall₂ (fun spec job => job.Under spec now) specs (registerFrom ids now place specs jobs).1 := by
  induction specs generalizing place jobs with
  | nil => exact .nil
  | cons spec rest ih => exact .cons (under_redefined goes (start_name _ spec now jobs)) ih

theorem get?_put_registered (id : JobId) (spec : JobSpec) (name : String) :
    (jobs.put (registered id spec now jobs)).get? name =
      if spec.name = name then some (registered id spec now jobs) else jobs.get? name := by
  rw [Table.get?_put, registered, redefined_name, start_name]

/-- The jobs of other names are left. -/
theorem get?_registerFrom_of_unnamed (others : ∀ spec ∈ specs, spec.name ≠ name) :
    (registerFrom ids now place specs jobs).2.get? name = jobs.get? name := by
  induction specs generalizing place jobs with
  | nil => rfl
  | cons spec rest ih =>
    obtain ⟨head, tail⟩ := List.forall_mem_cons.mp others
    exact (ih tail).trans ((get?_put_registered ..).trans (if_neg head))

/-- Of a job of the name the last definition is left, and of what was there before only how the job began. -/
theorem get?_registerFrom_of_named (ids : Nat → JobId) (now : Instant) (place : Nat) (jobs : Table Job.name)
    (named : ∃ spec ∈ specs, spec.name = name) :
    ∃ i first last, specs.findIdx? (·.name = name) = some i ∧ specs[i]? = some first ∧
      (specs.filter (·.name = name)).getLast? = some last ∧
      (registerFrom ids now place specs jobs).2.get? name =
        some (((jobs.get? name).getD (fresh (ids (place + i)) first now)).redefined last now) := by
  induction specs generalizing place jobs with
  | nil =>
    obtain ⟨_, ⟨⟩, -⟩ := named
  | cons spec rest ih =>
    have put : (jobs.put (registered (ids place) spec now jobs)).get? name = _ := get?_put_registered (ids place) spec name
    by_cases here : spec.name = name
    · rw [if_pos here] at put
      subst here
      have begins : (spec :: rest).findIdx? (·.name = spec.name) = some 0 := by simp [List.findIdx?_cons]
      refine ⟨0, spec, ?_⟩
      by_cases more : ∃ later ∈ rest, later.name = spec.name
      · obtain ⟨i, first, last, -, -, hlast, left⟩ := ih (place + 1) (jobs.put _) more
        refine ⟨last, begins, rfl, ?_, left.trans ?_⟩
        · rw [List.filter_cons_of_pos (by simp), List.getLast?_cons, hlast]
          rfl
        · rw [put]
          rfl
      · have others : ∀ later ∈ rest, later.name ≠ spec.name := fun later hlater same => more ⟨later, hlater, same⟩
        have none : rest.filter (·.name = spec.name) = [] :=
          List.filter_eq_nil_iff.mpr fun later hlater same => others later hlater (of_decide_eq_true same)
        refine ⟨spec, begins, rfl, ?_, ?_⟩
        · rw [List.filter_cons_of_pos (by simp), none]
          rfl
        · exact (get?_registerFrom_of_unnamed others).trans put
    · rw [if_neg here] at put
      obtain ⟨later, hlater, same⟩ := named
      have behind := (List.mem_cons.mp hlater).resolve_left fun e => here (e ▸ same)
      obtain ⟨i, first, last, hi, hfirst, hlast, left⟩ := ih (place + 1) (jobs.put _) ⟨later, behind, same⟩
      refine ⟨i + 1, first, last, ?_, hfirst, ?_, left.trans ?_⟩
      · simp [List.findIdx?_cons, here, hi]
      · rw [List.filter_cons_of_neg (by simpa using here), hlast]
      · rw [put, Nat.add_assoc, Nat.add_comm 1 i]

/-- Where there is a job of each name already, no name is added. -/
theorem map_name_registerFrom (known : ∀ spec ∈ specs, ∃ job, jobs.get? spec.name = some job) :
    (registerFrom ids now place specs jobs).2.rows.map (·.name) = jobs.rows.map (·.name) := by
  induction specs generalizing place jobs with
  | nil => rfl
  | cons spec rest ih =>
    obtain ⟨⟨job, stored⟩, tail⟩ := List.forall_mem_cons.mp known
    have member : (registered (ids place) spec now jobs).name ∈ jobs.rows.map (·.name) := by
      rw [registered, redefined_name, start_name, ← Table.key_of_get? stored]
      exact List.mem_map_of_mem (Table.mem_of_get? stored)
    refine (ih fun later hlater => ?_).trans (Table.map_key_put_of_mem member)
    rw [get?_put_registered]
    split
    · exact ⟨_, rfl⟩
    · exact tail later hlater

/-- The same definitions once more leave the table that they have left. -/
theorem registerFrom_again {place' : Nat} :
    (registerFrom ids' now place' specs (registerFrom ids now place specs jobs).2).2 =
      (registerFrom ids now place specs jobs).2 := by
  have left : ∀ name, (∃ spec ∈ specs, spec.name = name) → ∃ (job : Job) (last : JobSpec),
      (specs.filter (·.name = name)).getLast? = some last ∧
        (registerFrom ids now place specs jobs).2.get? name = some (job.redefined last now) := fun name named => by
    obtain ⟨_, _, last, -, -, hlast, found⟩ := get?_registerFrom_of_named ids now place jobs named
    exact ⟨_, last, hlast, found⟩
  refine Table.ext_get? (map_name_registerFrom fun spec hspec => ?_) fun name => ?_
  · obtain ⟨_, _, -, found⟩ := left spec.name ⟨spec, hspec, rfl⟩
    exact ⟨_, found⟩
  · by_cases named : ∃ spec ∈ specs, spec.name = name
    · obtain ⟨job, last, hlast, found⟩ := left name named
      obtain ⟨_, _, last', -, -, hlast', again⟩ :=
        get?_registerFrom_of_named ids' now place' (registerFrom ids now place specs jobs).2 named
      obtain rfl := Option.some.inj (hlast.symm.trans hlast')
      rw [again, found, Option.getD_some, redefined_redefined]
    · exact get?_registerFrom_of_unnamed fun spec hspec same => named ⟨spec, hspec, same⟩

end

theorem upsertJobs_eq (valid : ∀ spec ∈ specs, spec.validate = .ok ())
    (goes : ∀ spec ∈ specs, ∃ next, (spec.expression.next now : Outcome Refusal (Option Instant)) = .ok next)
    (ids : Nat → JobId) (s : Store) : upsertJobs ids specs now s = if s.poisoned then (.error (.refused .poisoned), s)
      else (.ok (registerFrom ids now 0 specs s.jobs).1, { s with jobs := (registerFrom ids now 0 specs s.jobs).2 }) := by
  rw [upsertJobs, bind_apply, forM_eq_ok_iff.mpr valid, ofRule_ok]
  dsimp only
  rw [locked_apply]
  cases specs with
  | nil => rfl
  | cons spec rest =>
    obtain ⟨next, found⟩ := goes spec List.mem_cons_self
    rw [upsertFrom_eq (Expression.next_eq_ok.mp found).1]

/-- Valid definitions are registered by name, whatever jobs there are. The answer has a job for each of them, in their
    order. A job whose name they do not mention is left as it was. Of a name that they mention there is one job then: what
    the last definition of it says, and with the history of the job that was there, or of the one that the first
    definition has made. To register them once more at the same time leaves the same table. A poisoned store refuses
    them. -/
theorem registers_by_name (valid : ∀ spec ∈ specs, spec.validate = .ok ())
    (goes : ∀ spec ∈ specs, ∃ next, (spec.expression.next now : Outcome Refusal (Option Instant)) = .ok next)
    (ids : Nat → JobId) (s : Store) :
    (s.poisoned = false → ∃ made jobs, upsertJobs ids specs now s = (.ok made, { s with jobs }) ∧
      List.Forall₂ (fun spec job => job.Under spec now) specs made ∧
      (∀ name, (∀ spec ∈ specs, spec.name ≠ name) → jobs.get? name = s.jobs.get? name) ∧
      (∀ name, (∃ spec ∈ specs, spec.name = name) → ∃ i first last start job,
        specs.findIdx? (·.name = name) = some i ∧ specs[i]? = some first ∧
        (specs.filter (·.name = name)).getLast? = some last ∧
        (s.jobs.get? name = some start ∨ s.jobs.get? name = none ∧ Job.create (ids i) first now = .ok start) ∧
        jobs.rows.filter (·.name = name) = [job] ∧ job.Under last now ∧ start.SameHistory job) ∧
      ∀ ids', ∃ made', upsertJobs ids' specs now { s with jobs } = (.ok made', { s with jobs })) ∧
    (s.poisoned = true → upsertJobs ids specs now s = (.error (.refused .poisoned), s)) := by
  have call := upsertJobs_eq valid goes ids s
  refine ⟨fun isOpen => ?_, fun poisoned => call.trans (if_pos poisoned)⟩
  rw [if_neg (Bool.eq_false_iff.mp isOpen)] at call
  refine ⟨_, _, call, ?_, fun name others => get?_registerFrom_of_unnamed others, fun name named => ?_, fun ids' => ?_⟩
  · cases specs with
    | nil => exact .nil
    | cons spec rest =>
      obtain ⟨next, found⟩ := goes spec List.mem_cons_self
      exact registerFrom_under (Expression.next_eq_ok.mp found).1
  · obtain ⟨spec, hspec, rfl⟩ := named
    obtain ⟨next, found⟩ := goes spec hspec
    have goes := (Expression.next_eq_ok.mp found).1
    obtain ⟨i, first, last, hi, hfirst, hlast, left⟩ :=
      get?_registerFrom_of_named ids now 0 s.jobs ⟨spec, hspec, rfl⟩
    have named : last.name = spec.name := of_decide_eq_true (List.mem_filter.mp (List.mem_of_getLast? hlast)).2
    refine ⟨i, first, last, (s.jobs.get? spec.name).getD (fresh (ids (0 + i)) first now), _, hi, hfirst, hlast, ?_,
      Table.filter_rows_key left, under_redefined goes ((Table.key_of_get? left).trans named.symm), sameHistory_redefined⟩
    cases s.jobs.get? spec.name with
    | some old => exact Or.inl rfl
    | none => exact Or.inr ⟨rfl, by rw [Nat.zero_add, create_eq_fresh goes, Option.getD_none]⟩
  · rw [upsertJobs_eq valid goes, if_neg (Bool.eq_false_iff.mp isOpen)]
    dsimp only
    rw [registerFrom_again]
    exact ⟨_, rfl⟩

/-- Definitions of two names, one of which comes twice. -/
def renewed : List JobSpec := [.plain "a" .everyMinute, .plain "b" .everyMinute, .plain "a" .everyHour]

theorem registers_by_name_renewed :
    ∃ made jobs job, upsertJobs JobId.made renewed .epoch {} = (.ok made, { jobs }) ∧ made.length = 3 ∧
      jobs.rows.filter (·.name = "a") = [job] ∧ job.id = .made 0 ∧ job.expression = .everyHour ∧
      job.nextRunAt = ⟨60, 0⟩ ∧
      (∃ made', upsertJobs (fun n => .made (n + 3)) renewed .epoch { jobs } = (.ok made', { jobs })) ∧
      upsertJobs JobId.made renewed .epoch (Call.afterAll Call.crashed {}) =
        (.error (.refused .poisoned), Call.afterAll Call.crashed {}) := by
  have valid : ∀ spec ∈ renewed, spec.validate = .ok () := by decide
  have goes : ∀ spec ∈ renewed, ∃ next, (spec.expression.next .epoch : Outcome Refusal (Option Instant)) = .ok next :=
    fun spec _ => ⟨_, Expression.next_eq_ok.mpr ⟨by decide, rfl⟩⟩
  obtain ⟨made, jobs, call, answers, -, named, again⟩ := (registers_by_name valid goes JobId.made {}).1 rfl
  obtain ⟨i, first, last, start, job, hi, hfirst, hlast, begin, single, under, history⟩ :=
    named "a" ⟨_, List.mem_cons_self, rfl⟩
  obtain rfl : 0 = i := Option.some.inj hi
  obtain rfl : JobSpec.plain "a" .everyMinute = first := Option.some.inj hfirst
  obtain rfl : JobSpec.plain "a" .everyHour = last := Option.some.inj hlast
  obtain ⟨next, found, rfl⟩ := create_eq_ok.mp (begin.resolve_left nofun).2
  obtain rfl := (Expression.next_eq_ok.mp found).2
  have planned : (Expression.everyMinute.schedule.next? .epoch).getD .epoch = ⟨60, 0⟩ := by decide
  exact ⟨made, jobs, job, call, answers.length_eq.symm, single, history.id, under.expression,
    history.nextRunAt.trans planned, again _, (registers_by_name valid goes JobId.made _).2 (by decide)⟩

/-- After a crash the lock refuses a valid definition, at a time at which the search for its next time ends. -/
theorem upsert_refused_crashed :
    ∃ es s, Run {} es s ∧ (JobSpec.plain "a" .everyMinute).validate = .ok () ∧
      (∃ next, (Expression.everyMinute.next .epoch : Outcome Refusal (Option Instant)) = .ok next) ∧
      (upsertJobs JobId.made [.plain "a" .everyMinute] .epoch s).1 = .error (.refused .poisoned) := by
  have goes : ∃ next, (Expression.everyMinute.next .epoch : Outcome Refusal (Option Instant)) = .ok next :=
    ⟨_, Expression.next_eq_ok.mpr ⟨by decide, rfl⟩⟩
  exact ⟨_, _, Run.of_calls Call.crashed {}, by decide, goes, by decide +kernel⟩

end Store
end DurableQueue
