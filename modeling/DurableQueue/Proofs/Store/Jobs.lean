import DurableQueue.Proofs.Job.Transition
import DurableQueue.Proofs.Store.Tasks
import DurableQueue.Store.Jobs

/-! What the calls that concern cron jobs answer and what they leave in the store. Registering writes jobs only; a tick
    writes the tasks of all jobs that fire and then these jobs, or nothing. -/

namespace DurableQueue
namespace Store
open StoreM

variable {s : Store} {now : Instant}

/-! ### Registering -/

theorem upsertJob_apply (id : JobId) (spec : JobSpec) (now : Instant) (s : Store) :
    upsertJob id spec now s =
      match (match s.jobs.get? spec.name with
        | some job => job.apply spec now
        | none => Job.create id spec now) with
      | .ok job => (.ok job, { s with jobs := s.jobs.put job })
      | .error h => (.error (h.map .refused), s) := by
  unfold upsertJob
  simp only [bind_apply, get_apply]
  cases s.jobs.get? spec.name with
  | none =>
    simp only [bind_apply, ofOutcome_apply]
    cases Job.create id spec now <;> rfl
  | some job =>
    simp only [bind_apply, ofOutcome_apply]
    cases job.apply spec now <;> rfl

/-- What definitions of one name make of the job of that name: the first of them makes a job where there is none, and the
    last one decides what the job is like. -/
inductive Registered (now : Instant) : List JobSpec → Option Job → Option Job → Prop where
  | kept (job : Option Job) : Registered now [] job job
  | defined {specs : List JobSpec} {first last : JobSpec} {job : Option Job} {start made : Job}
      (hfirst : specs.head? = some first) (hlast : specs.getLast? = some last)
      (begin : job = some start ∨ job = none ∧ ∃ id, Job.create id first now = .ok start)
      (moved : start.apply last now = .ok made) : Registered now specs job (some made)

theorem Registered.eq_of_nil {job final : Option Job} (h : Registered now [] job final) : final = job := by
  cases h with
  | kept => rfl
  | defined hfirst _ _ _ => cases hfirst

/-- A job that was there before is as one of the definitions says. -/
theorem Registered.applied {specs : List JobSpec} {job final : Job} (h : Registered now specs (some job) (some final)) :
    specs = [] ∧ final = job ∨ ∃ last ∈ specs, job.apply last now = .ok final := by
  cases h with
  | kept => exact Or.inl ⟨rfl, rfl⟩
  | defined _ hlast begin moved =>
    rcases begin with same | ⟨⟨⟩, -⟩
    obtain rfl := Option.some.inj same
    exact Or.inr ⟨_, List.mem_of_getLast? hlast, moved⟩

theorem Registered.cons {spec : JobSpec} {specs : List JobSpec} {job final : Option Job} {made : Job}
    (head : Registered now [spec] job (some made)) (tail : Registered now specs (some made) final) :
    Registered now (spec :: specs) job final := by
  cases tail with
  | kept => exact head
  | defined hfirst hlast begin moved =>
    rcases begin with same | ⟨⟨⟩, -⟩
    obtain rfl := Option.some.inj same
    cases head with
    | defined hfirst' hlast' begin' moved' =>
      cases hfirst'
      cases hlast'
      have whole : (spec :: specs).getLast? = specs.getLast? := List.getLast?_cons_of_ne_nil (by rintro rfl; cases hfirst)
      exact .defined rfl (whole.trans hlast) begin' ((Job.apply_of_apply moved').symm.trans moved)

/-- Where the calendar goes on, a definition is registered. -/
theorem upsertJob_ok (goes : now.add? (.ofSeconds 1) ≠ none) (id : JobId) (spec : JobSpec) (s : Store) :
    ∃ job, upsertJob id spec now s = (.ok job, { s with jobs := s.jobs.put job }) ∧ job.name = spec.name ∧
      Registered now [spec] (s.jobs.get? spec.name) (some job) := by
  have found : (spec.expression.next now : Outcome Refusal (Option Instant)) = .ok (spec.expression.schedule.next? now) :=
    Expression.next_eq_ok.mpr ⟨Option.isSome_iff_ne_none.mpr goes, rfl⟩
  rw [upsertJob_apply]
  cases stored : s.jobs.get? spec.name with
  | none =>
    have made : Job.create id spec now = .ok _ := Job.create_eq_ok.mpr ⟨_, found, rfl⟩
    dsimp only
    rw [made]
    exact ⟨_, rfl, rfl, .defined rfl rfl (Or.inr ⟨rfl, id, made⟩) (Job.apply_of_create made)⟩
  | some job =>
    have same : job.name = spec.name := Table.key_of_get? stored
    have made : job.apply spec now = .ok _ := Job.apply_eq_ok.mpr ⟨_, found, rfl⟩
    dsimp only
    rw [made]
    exact ⟨_, rfl, same, .defined rfl rfl (Or.inl rfl) made⟩

theorem upsertJob_crash (ends : now.add? (.ofSeconds 1) = none) (id : JobId) (spec : JobSpec) (s : Store) :
    upsertJob id spec now s = (.error .crashed, s) := by
  have lost : (spec.expression.next now : Outcome Refusal (Option Instant)) = .crash := Expression.next_eq_crash.mpr ends
  rw [upsertJob_apply]
  cases s.jobs.get? spec.name with
  | none =>
    dsimp only
    rw [Job.create, lost]
    rfl
  | some job =>
    dsimp only
    rw [Job.apply, lost]
    rfl

theorem upsertFrom_ok (goes : now.add? (.ofSeconds 1) ≠ none) (ids : Nat → JobId) (place : Nat) (specs : List JobSpec)
    (s : Store) :
    ∃ made jobs, upsertFrom ids now place specs s = (.ok made, { s with jobs }) ∧
      ∀ name, Registered now (specs.filter (·.name = name)) (s.jobs.get? name) (jobs.get? name) := by
  induction specs generalizing place s with
  | nil => exact ⟨[], s.jobs, rfl, fun name => .kept _⟩
  | cons spec rest ih =>
    obtain ⟨job, hjob, same, head⟩ := upsertJob_ok goes (ids place) spec s
    obtain ⟨made, jobs, hrest, tail⟩ := ih (place + 1) { s with jobs := s.jobs.put job }
    refine ⟨job :: made, jobs, ?_, fun name => ?_⟩
    · rw [upsertFrom]
      simp only [bind_apply, hjob, hrest, pure_apply]
    · have tail := tail name
      rw [Table.get?_put, same] at tail
      by_cases named : spec.name = name
      · subst named
        rw [if_pos rfl] at tail
        rw [List.filter_cons_of_pos (by simp)]
        exact head.cons tail
      · rw [if_neg named] at tail
        rw [List.filter_cons_of_neg (by simpa using named)]
        exact tail

theorem forM_eq_ok_iff {specs : List JobSpec} :
    specs.forM JobSpec.validate = .ok () ↔ ∀ spec ∈ specs, spec.validate = .ok () := by
  induction specs with
  | nil => simp [pure, Except.pure]
  | cons spec rest ih =>
    show (spec.validate >>= fun _ => rest.forM JobSpec.validate) = _ ↔ _
    rw [List.forall_mem_cons]
    cases spec.validate with
    | error cause => simp [bind, Except.bind]
    | ok _ => simpa [bind, Except.bind] using ih

/-- Definitions are registered all or none: before a crash or a refusal no job has been written. -/
theorem upsertJobs_cases (ids : Nat → JobId) (specs : List JobSpec) (now : Instant) (s : Store) :
    (∃ h poisoned, upsertJobs ids specs now s = (.error h, { s with poisoned })) ∨
    s.poisoned = false ∧ (∀ spec ∈ specs, spec.validate = .ok ()) ∧
      ∃ made jobs, upsertJobs ids specs now s = (.ok made, { s with jobs }) ∧
        ∀ name, Registered now (specs.filter (·.name = name)) (s.jobs.get? name) (jobs.get? name) := by
  unfold upsertJobs
  rw [bind_apply]
  cases valid : specs.forM JobSpec.validate with
  | error cause => exact Or.inl ⟨_, s.poisoned, rfl⟩
  | ok _ =>
    simp only [ofRule_ok, locked_apply]
    by_cases poisoned : s.poisoned = true
    · exact Or.inl ⟨_, s.poisoned, if_pos poisoned⟩
    · rw [if_neg poisoned]
      by_cases goes : now.add? (.ofSeconds 1) = none
      · -- The calendar is at its end, so the first definition crashes, if there is one.
        cases specs with
        | nil => exact Or.inr ⟨Bool.eq_false_iff.mpr poisoned, forM_eq_ok_iff.mp valid, [], s.jobs, rfl, fun _ => .kept _⟩
        | cons spec rest =>
          rw [upsertFrom, bind_apply, upsertJob_crash goes]
          exact Or.inl ⟨_, true, rfl⟩
      · obtain ⟨made, jobs, hs, all⟩ := upsertFrom_ok goes ids 0 specs s
        rw [hs]
        exact Or.inr ⟨Bool.eq_false_iff.mpr poisoned, forM_eq_ok_iff.mp valid, made, jobs, rfl, all⟩

theorem upsertJobs_tasks (ids : Nat → JobId) (specs : List JobSpec) (now : Instant) (s : Store) :
    (upsertJobs ids specs now s).2.tasks = s.tasks := by
  rcases upsertJobs_cases ids specs now s with ⟨h, poisoned, hs⟩ | ⟨-, -, made, jobs, hs, -⟩
  · rw [hs]
  · rw [hs]

/-! ### Selecting -/

section
variable {jobs : List Job} {limit : Nat} {job : Job}

theorem mem_of_mem_selectDue (h : job ∈ selectDue jobs now limit) : job ∈ jobs ∧ job.isDue now = true :=
  List.mem_filter.mp ((List.mergeSort_perm _ _).mem_iff.mp (List.mem_of_mem_take h))

theorem length_selectDue (jobs : List Job) (now : Instant) (limit : Nat) :
    (selectDue jobs now limit).length = min limit (jobs.countP (·.isDue now)) := by
  rw [selectDue, List.length_take, List.length_mergeSort, List.countP_eq_length_filter]

/-- The jobs that are due by the time of their fire, those included that are beyond the limit. -/
theorem pairwise_sorted (jobs : List Job) : (jobs.mergeSort fun a b => a.nextRunAt ≤ b.nextRunAt).Pairwise
    fun a b => a.nextRunAt ≤ b.nextRunAt := by
  refine (List.pairwise_mergeSort (fun a b c hab hbc => ?_) (fun a b => ?_) jobs).imp fun h => of_decide_eq_true h
  · exact decide_eq_true (Std.le_trans (of_decide_eq_true hab) (of_decide_eq_true hbc))
  · rw [Bool.or_eq_true, decide_eq_true_iff, decide_eq_true_iff]
    exact Std.le_total

theorem pairwise_selectDue (jobs : List Job) (now : Instant) (limit : Nat) :
    (selectDue jobs now limit).Pairwise fun a b => a.nextRunAt ≤ b.nextRunAt :=
  (pairwise_sorted _).sublist (List.take_sublist _ _)

/-- What is left for a later tick was to fire no earlier than what is selected. -/
theorem le_of_not_mem_selectDue (h : job ∈ jobs) (due : job.isDue now = true) (left : job ∉ selectDue jobs now limit) :
    ∀ chosen ∈ selectDue jobs now limit, chosen.nextRunAt ≤ job.nextRunAt := by
  intro chosen hchosen
  have sorted := pairwise_sorted (jobs.filter (·.isDue now))
  have member := (List.mergeSort_perm (jobs.filter (·.isDue now)) fun a b => a.nextRunAt ≤ b.nextRunAt).mem_iff.mpr
    (List.mem_filter.mpr ⟨h, due⟩)
  rw [← List.take_append_drop limit (List.mergeSort _ _)] at sorted member
  have behind := (List.mem_append.mp member).resolve_left left
  exact (List.pairwise_append.mp sorted).2.2 chosen hchosen job behind

theorem nodup_selectDue (t : Table Job.name) (now : Instant) (limit : Nat) :
    ((selectDue t.rows now limit).map (·.name)).Nodup := by
  have due : ((t.rows.filter (·.isDue now)).map (·.name)).Nodup := t.distinct.sublist (List.filter_sublist.map _)
  have sorted := ((List.mergeSort_perm (t.rows.filter (·.isDue now)) fun a b => a.nextRunAt ≤ b.nextRunAt).map
    (·.name)).nodup_iff.mpr due
  exact sorted.sublist ((List.take_sublist _ _).map _)

end

/-! ### Firing -/

theorem forM_putJob_apply (fired : List FiredJob) (s : Store) :
    (fired.forM fun f => putJob f.job) s =
      (.ok (), { s with jobs := fired.foldl (fun jobs f => jobs.put f.job) s.jobs }) := by
  induction fired generalizing s with
  | nil => rfl
  | cons f rest ih =>
    show (putJob f.job >>= fun _ => rest.forM fun f => putJob f.job) s = _
    rw [bind_apply, putJob_apply]
    exact ih _

theorem fireDue_apply (ids : Nat → TaskId) (now : Instant) (limit maxAttempts : Nat) (s : Store) :
    fireDue ids now limit maxAttempts s = if s.poisoned then (.error (.refused .poisoned), s)
      else match fireFrom ids now maxAttempts 0 (selectDue s.jobs.rows now limit) with
        | .error (.refused cause) => (.error (.refused (.refused cause)), s)
        | .error .crashed => (.error .crashed, { s with poisoned := true })
        | .ok fired =>
          match checkBatch s.tasks [] (fired.map (·.fire.task)) with
          | .error fault => (.error (.refused fault), s)
          | .ok () => (.ok fired, { s with
              tasks := (fired.map (·.fire.task)).foldl Table.put s.tasks
              jobs := fired.foldl (fun jobs f => jobs.put f.job) s.jobs }) := by
  unfold fireDue
  rw [locked_apply]
  split
  · rfl
  · simp only [bind_apply, get_apply]
    rcases fireFrom ids now maxAttempts 0 (selectDue s.jobs.rows now limit) with (cause | _) | fired
    · rfl
    · rfl
    · simp only [ofOutcome_ok, insertAll_apply]
      cases checkBatch s.tasks [] (fired.map (·.fire.task)) with
      | error fault => rfl
      | ok _ => simp only [forM_putJob_apply, pure_apply]

section
variable {ids : Nat → TaskId} {maxAttempts place : Nat} {jobs : List Job} {fired : List FiredJob}

theorem fireFrom_cons (job : Job) (rest : List Job) : fireFrom ids now maxAttempts place (job :: rest) =
    (job.fire (ids place) now maxAttempts).bind fun (next, fire) =>
      (fireFrom ids now maxAttempts (place + 1) rest).map (⟨next, fire⟩ :: ·) := by
  rw [fireFrom]
  cases job.fire (ids place) now maxAttempts with
  | error h => rfl
  | ok made => cases fireFrom ids now maxAttempts (place + 1) rest <;> rfl

theorem fireFrom_cons_eq_ok {job : Job} {rest : List Job} :
    fireFrom ids now maxAttempts place (job :: rest) = .ok fired ↔
      ∃ f others, job.fire (ids place) now maxAttempts = .ok (f.job, f.fire) ∧
        fireFrom ids now maxAttempts (place + 1) rest = .ok others ∧ fired = f :: others := by
  rw [fireFrom]
  cases hf : job.fire (ids place) now maxAttempts with
  | error e => simp [bind, Except.bind]
  | ok made =>
    cases hr : fireFrom ids now maxAttempts (place + 1) rest with
    | error e => simp [bind, Except.bind]
    | ok others =>
      simp only [bind, Except.bind, pure, Except.pure, Except.ok.injEq]
      constructor
      · rintro rfl
        exact ⟨⟨made.1, made.2⟩, others, rfl, rfl, rfl⟩
      · rintro ⟨⟨next, fire⟩, others', hmade, rfl, rfl⟩
        rw [hmade]

/-- The entries of a tick are the fires of the selected jobs, one by one. -/
theorem fireFrom_getElem? (h : fireFrom ids now maxAttempts place jobs = .ok fired) :
    fired.length = jobs.length ∧ ∀ (i : Nat) (job : Job) (f : FiredJob), jobs[i]? = some job → fired[i]? = some f →
      job.fire (ids (place + i)) now maxAttempts = .ok (f.job, f.fire) := by
  induction jobs generalizing place fired with
  | nil =>
    cases h
    exact ⟨rfl, fun i job f hjob _ => by rw [List.getElem?_nil] at hjob; cases hjob⟩
  | cons job rest ih =>
    obtain ⟨f, others, hf, hrest, rfl⟩ := fireFrom_cons_eq_ok.mp h
    obtain ⟨length, fires⟩ := ih hrest
    refine ⟨congrArg (· + 1) length, fun i job' f' hjob hf' => ?_⟩
    cases i with
    | zero =>
      cases hjob
      cases hf'
      exact hf
    | succ i =>
      rw [← Nat.add_assoc, Nat.add_right_comm]
      exact fires i job' f' hjob hf'

/-- An entry of a tick, and the selected job that it comes from. -/
theorem fireFrom_mem (h : fireFrom ids now maxAttempts place jobs = .ok fired) {f : FiredJob} (hf : f ∈ fired) :
    ∃ job ∈ jobs, ∃ id, job.fire id now maxAttempts = .ok (f.job, f.fire) := by
  obtain ⟨length, fires⟩ := fireFrom_getElem? h
  obtain ⟨i, hi, rfl⟩ := List.mem_iff_getElem.mp hf
  have bound : i < jobs.length := length ▸ hi
  exact ⟨jobs[i], List.getElem_mem bound, _, fires i _ _ (List.getElem?_eq_getElem bound) (List.getElem?_eq_getElem hi)⟩

theorem fireFrom_names (h : fireFrom ids now maxAttempts place jobs = .ok fired) :
    fired.map (·.job.name) = jobs.map (·.name) := by
  obtain ⟨length, fires⟩ := fireFrom_getElem? h
  refine List.ext_getElem (by simpa using length) fun i hi hi' => ?_
  rw [List.length_map] at hi hi'
  have moved := fires i _ _ (List.getElem?_eq_getElem hi') (List.getElem?_eq_getElem hi)
  rw [List.getElem_map, List.getElem_map, Job.fire_name moved]

/-- Each task of a tick has been made by the fire of a job. -/
theorem fireFrom_created (h : fireFrom ids now maxAttempts place jobs = .ok fired) :
    ∀ f ∈ fired, ∃ id new, f.fire.task = .create id new now := by
  intro f hf
  obtain ⟨job, -, id, moved⟩ := fireFrom_mem h hf
  obtain ⟨-, _, _, -, -, -, hfire⟩ := Job.fire_eq_ok.mp moved
  exact ⟨_, _, congrArg Fire.task hfire⟩

end

end Store
end DurableQueue
