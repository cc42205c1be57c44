import DurableQueue.Proofs.Store.Lock
import DurableQueue.Proofs.Store.Turn
import Mathlib.Data.List.Nodup

/-! No job can stop the scheduler. One job that failed to fire would fail every tick that chooses it, for all jobs; but a
    definition is checked for all that a fire needs before it is registered, and no call takes that from a job. So a tick
    is refused by the lock alone: after a call of the run has crashed while it held the lock. -/

namespace DurableQueue

/-- A job with what its tasks need: a subject, and a delay that is not too long. -/
structure Job.Sound (job : Job) : Prop where
  subject : job.subject ≠ ""
  delay_le : job.delay ≤ longestDelay

section
variable {job next : Job} {now : Instant}

namespace Job

theorem sound_of_apply {spec : JobSpec} (valid : spec.validate = .ok ()) (h : job.apply spec now = .ok next) :
    next.Sound := by
  obtain ⟨_, -, rfl⟩ := apply_eq_ok.mp h
  exact ⟨(JobSpec.of_validate valid).1, (JobSpec.of_validate valid).2⟩

theorem Sound.of_fire {id : TaskId} {maxAttempts : Nat} {made : Fire} (sound : job.Sound)
    (h : job.fire id now maxAttempts = .ok (next, made)) : next.Sound := by
  obtain ⟨-, _, _, -, -, rfl, -⟩ := fire_eq_ok.mp h
  exact ⟨sound.subject, sound.delay_le⟩

/-- A sound job that is due fires, unless the calendar ends within the longest delay. -/
theorem Sound.fires (sound : job.Sound) (here : now.InRange) (far : (now.add? longestDelay).isSome = true)
    (due : job.isDue now = true) (id : TaskId) (maxAttempts : Nat) :
    ∃ next fire, job.fire id now maxAttempts = .ok (next, fire) := by
  obtain ⟨runAfter, hrun⟩ := Option.isSome_iff_exists.mp (Instant.add?_isSome_of_le here far sound.delay_le)
  have delayed : now.delayed job.delay = .ok runAfter := by
    have short : ¬longestDelay < job.delay := Nat.not_lt.mpr sound.delay_le
    rw [Instant.delayed, if_neg short, hrun]
  have second : Span.ofSeconds 1 ≤ longestDelay := by decide
  have found : (job.expression.next now : Outcome Refusal (Option Instant)) = .ok (job.expression.schedule.next? now) :=
    Expression.next_eq_ok.mpr ⟨Instant.add?_isSome_of_le here far second, rfl⟩
  exact ⟨_, _, fire_eq_ok.mpr ⟨due, runAfter, _, delayed, found, rfl, rfl⟩⟩

end Job
end

namespace Store
variable {s : Store} {es : List Event} {now : Instant} {ids : Nat → TaskId} {limit maxAttempts place : Nat}
variable {jobs : List Job} {fired : List FiredJob}

/-! ### Jobs of a run -/

theorem Event.Turns.sound {e : Event} {name : String} {job : Option Job} {final : Job}
    (h : e.Turns name job (some final)) (sound : ∀ before ∈ job, before.Sound) : final.Sound := by
  cases h with
  | kept => exact sound final rfl
  | registered registers moved =>
    obtain ⟨-, _, all, _, -, -, valid, named⟩ := registers
    cases moved with
    | kept => exact sound final rfl
    | defined _ hlast _ moved =>
      have member := List.mem_of_getLast? hlast
      rw [named] at member
      exact Job.sound_of_apply (valid _ (List.mem_of_mem_filter member)) moved
  | fired _ moved => exact (sound _ rfl).of_fire moved

theorem Run.jobs_sound (run : Run {} es s) : ∀ job ∈ s.jobs.rows, job.Sound :=
  run.job_invariant (fun turn => turn.sound) nofun

/-! ### Fires -/

theorem fireFrom_ok (fires : ∀ job ∈ jobs, ∀ id, ∃ next fire, job.fire id now maxAttempts = .ok (next, fire)) :
    ∃ fired, fireFrom ids now maxAttempts place jobs = .ok fired := by
  induction jobs generalizing place with
  | nil => exact ⟨[], rfl⟩
  | cons job rest ih =>
    obtain ⟨head, others⟩ := List.forall_mem_cons.mp fires
    obtain ⟨next, fire, hf⟩ := head (ids place)
    obtain ⟨tail, hrest⟩ : ∃ tail, fireFrom ids now maxAttempts (place + 1) rest = .ok tail := ih others
    exact ⟨⟨next, fire⟩ :: tail, fireFrom_cons_eq_ok.mpr ⟨⟨next, fire⟩, tail, hf, hrest, rfl⟩⟩

/-- The tasks of a tick have the identifiers of the supply, in order. -/
theorem fireFrom_ids (h : fireFrom ids now maxAttempts place jobs = .ok fired) :
    (fired.map (·.fire.task)).map (·.id) = (List.range' place jobs.length).map ids := by
  obtain ⟨length, fires⟩ := fireFrom_getElem? h
  refine List.ext_getElem (by simpa using length) fun i hi hi' => ?_
  rw [List.length_map, List.length_map] at hi
  rw [List.length_map, List.length_range'] at hi'
  have moved := fires i _ _ (List.getElem?_eq_getElem hi') (List.getElem?_eq_getElem hi)
  simpa using (Job.task_of_fire moved).1

/-- The first identifiers of a supply are new: none of them is in the store, and no two of them are the same. -/
structure NewIds (ids : Nat → TaskId) (count : Nat) (s : Store) : Prop where
  unused : ∀ i < count, s.tasks.get? (ids i) = none
  distinct : ∀ i < count, ∀ j < count, ids i = ids j → i = j

theorem NewIds.nodup {count : Nat} (new : NewIds ids count s) : ((List.range count).map ids).Nodup :=
  List.Nodup.map_on (fun i hi j hj => new.distinct i (List.mem_range.mp hi) j (List.mem_range.mp hj)) List.nodup_range

theorem checkBatch_fired (h : fireFrom ids now maxAttempts 0 jobs = .ok fired) (new : NewIds ids jobs.length s)
    (sound : ∀ job ∈ jobs, job.Sound) : checkBatch s.tasks [] (fired.map (·.fire.task)) = .ok () := by
  have supplied : (fired.map (·.fire.task)).map (·.id) = (List.range jobs.length).map ids := by
    rw [fireFrom_ids h, List.range_eq_range']
  refine checkBatch_eq_ok_iff.mpr ⟨fun t ht => ⟨?_, List.not_mem_nil, ?_⟩, ?_⟩
  · have member := List.mem_map_of_mem (f := (·.id)) ht
    rw [supplied] at member
    obtain ⟨i, hi, same⟩ := List.mem_map.mp member
    exact same ▸ new.unused i (List.mem_range.mp hi)
  · obtain ⟨f, hf, rfl⟩ := List.mem_map.mp ht
    obtain ⟨job, hjob, _, moved⟩ := fireFrom_mem h hf
    exact (Job.task_of_fire moved).2 ▸ (sound job hjob).subject
  · exact supplied ▸ new.nodup

/-- A task that is put back at the end of the calendar, which its next time to run does not fit in. -/
def Call.crashed : List Call :=
  [.publish TaskId.made .epoch [.of "a" []], .requeue (.made 0) ⟨Instant.lastSecond, 0⟩]

/-- In every store that a run from the empty store leaves, a tick fires all jobs that it chooses, and their tasks can be
    inserted. It answers with these fires, unless a call of the run has crashed: then the lock refuses it. -/
theorem tick_unfailing (run : Run {} es s) (here : now.InRange) (far : (now.add? longestDelay).isSome = true)
    (new : NewIds ids (min limit (s.jobs.rows.countP (·.isDue now))) s) :
    ∃ fired, fireFrom ids now maxAttempts 0 (selectDue s.jobs.rows now limit) = .ok fired ∧
      checkBatch s.tasks [] (fired.map (·.fire.task)) = .ok () ∧
      ((∀ e ∈ es, ¬e.Crashes) → (fireDue ids now limit maxAttempts s).1 = .ok fired) ∧
      ((∃ e ∈ es, e.Crashes) → (fireDue ids now limit maxAttempts s).1 = .error (.refused .poisoned)) := by
  have sound : ∀ job ∈ selectDue s.jobs.rows now limit, job.Sound :=
    fun job hjob => run.jobs_sound job (mem_of_mem_selectDue hjob).1
  obtain ⟨fired, hf⟩ : ∃ fired, fireFrom ids now maxAttempts 0 (selectDue s.jobs.rows now limit) = .ok fired :=
    fireFrom_ok fun job hjob id => (sound job hjob).fires here far (mem_of_mem_selectDue hjob).2 id maxAttempts
  rw [← length_selectDue] at new
  have inserted := checkBatch_fired hf new sound
  have poisoned := run.poisoned_iff
  refine ⟨fired, hf, inserted, fun whole => ?_, fun crashed => ?_⟩
  · have unlocked : ¬s.poisoned = true := by
      rw [poisoned]
      rintro (⟨⟨⟩⟩ | ⟨e, he, crashes⟩)
      exact whole e he crashes
    rw [fireDue_apply, if_neg unlocked, hf]
    dsimp only
    rw [inserted]
  · rw [fireDue_apply, if_pos (poisoned.mpr (Or.inr crashed))]

theorem tick_unfailing_registered :
    ∃ es fired, Run {} es (Call.afterAll Call.registered {}) ∧
      NewIds TaskId.made 1 (Call.afterAll Call.registered {}) ∧ fired.map (·.job.name) = ["a"] ∧
      (fireDue TaskId.made ⟨60, 0⟩ 1 3 (Call.afterAll Call.registered {})).1 = .ok fired := by
  have run : Run {} (Call.events Call.registered {}) (Call.afterAll Call.registered {}) := .of_calls Call.registered {}
  have new : NewIds TaskId.made 1 (Call.afterAll Call.registered {}) :=
    ⟨fun _ _ => rfl, fun i hi j hj _ => by omega⟩
  have one : min 1 ((Call.afterAll Call.registered {}).jobs.rows.countP (·.isDue ⟨60, 0⟩)) = 1 := by decide
  have selected : selectDue (Call.afterAll Call.registered {}).jobs.rows ⟨60, 0⟩ 1 =
      (Call.afterAll Call.registered {}).jobs.rows := by decide +kernel
  have unlocked : (Call.afterAll Call.registered {}).poisoned ≠ true := by decide
  have whole : ∀ e ∈ Call.events Call.registered {}, ¬e.Crashes := fun e he crashes =>
    unlocked (run.poisoned_iff.mpr (Or.inr ⟨e, he, crashes⟩))
  obtain ⟨fired, hf, -, answers, -⟩ := tick_unfailing run (by decide) (by decide) (one.symm ▸ new)
  refine ⟨_, fired, run, new, ?_, answers whole⟩
  rw [fireFrom_names hf, selected]
  rfl

/-- After a crash the lock refuses every tick, also one that has no job to fire. -/
theorem tick_refused_crashed :
    ∃ es s, Run {} es s ∧ Instant.epoch.InRange ∧ (Instant.epoch.add? longestDelay).isSome = true ∧
      NewIds (fun n => .made (n + 1)) 1 s ∧
      (fireDue (fun n => .made (n + 1)) .epoch 1 3 s).1 = .error (.refused .poisoned) := by
  have poisoned : (Call.afterAll Call.crashed {}).poisoned = true := by decide
  refine ⟨_, _, Run.of_calls Call.crashed {}, by decide, by decide, ⟨fun i hi => ?_, fun i hi j hj _ => by omega⟩, ?_⟩
  · obtain rfl : i = 0 := by omega
    decide
  · rw [fireDue_apply, if_pos poisoned]

end Store
end DurableQueue
