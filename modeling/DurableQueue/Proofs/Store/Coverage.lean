import DurableQueue.Proofs.Store.Repetition
import DurableQueue.Proofs.Store.Tick
import DurableQueue.Proofs.Store.Unfailing
import Mathlib.Algebra.Order.Floor.Div

/-! Ticks that are repeated at one time. A job that has fired is not due any more, whether its schedule goes on or not, so
    that a tick takes its jobs out of those that are due and leaves the others due as they were. One tick after the other
    cuts the jobs that were due at the start into batches, none of which has a job that is earlier than one before it. -/

namespace DurableQueue

/-- A job that has fired waits for a later time, or for none. -/
theorem Job.not_isDue_of_fire {job next : Job} {id : TaskId} {now : Instant} {maxAttempts : Nat} {fire : Fire}
    (h : job.fire id now maxAttempts = .ok (next, fire)) : ¬next.isDue now = true := by
  obtain ⟨-, _, later, -, found, rfl, -⟩ := Job.fire_eq_ok.mp h
  have ahead : ∀ u, later = some u → now < u := fun u same => Expression.lt_of_next (same ▸ found)
  exact Bool.eq_false_iff.mp (Job.not_isDue_advance ahead (Std.le_refl now))

namespace Store

variable {s s' : Store} {es : List Event} {ids : Nat → TaskId} {now : Instant} {limit maxAttempts place : Nat}
variable {jobs : Table Job.name} {chosen due : List Job} {fired : List FiredJob} {batches : List (List FiredJob)}

/-- Ticks at one time with one limit, each with identifiers that are new. -/
def ticks (now : Instant) (limit maxAttempts : Nat) (s : Store) (call : StoreM (List FiredJob)) : Prop :=
  ∃ ids, NewIds ids (min limit (s.jobs.rows.countP (·.isDue now))) s ∧ call = fireDue ids now limit maxAttempts

/-- The entries of ticks as the fires of jobs, one by one. -/
def Fired (now : Instant) (maxAttempts : Nat) : List Job → List FiredJob → Prop :=
  List.Forall₂ fun job f => ∃ id, job.fire id now maxAttempts = .ok (f.job, f.fire)

/-! ### One tick -/

theorem fired_of_fireFrom {jobs : List Job} (h : fireFrom ids now maxAttempts place jobs = .ok fired) :
    Fired now maxAttempts jobs fired := by
  induction jobs generalizing place fired with
  | nil =>
    cases h
    exact .nil
  | cons job rest ih =>
    obtain ⟨f, others, head, tail, rfl⟩ := fireFrom_cons_eq_ok.mp h
    exact .cons ⟨_, head⟩ (ih tail)

/-- The table with jobs as their fires have left them. -/
def afterFires (jobs : Table Job.name) (fired : List FiredJob) : Table Job.name :=
  fired.foldl (fun jobs f => jobs.put f.job) jobs

/-- The jobs that are due behind a tick are those that were due before it and have not fired. -/
theorem isDue_afterFires (h : fireFrom ids now maxAttempts place (selectDue jobs.rows now limit) = .ok fired)
    (job : Job) : job ∈ (afterFires jobs fired).rows ∧ job.isDue now = true ↔
      (job ∈ jobs.rows ∧ job.isDue now = true) ∧ job ∉ selectDue jobs.rows now limit := by
  have found : (afterFires jobs fired).get? job.name = _ := get?_fired h job.name
  have names := fireFrom_names h
  constructor
  · rintro ⟨member, due⟩
    rw [Table.get?_key member] at found
    cases entry : fired.find? (·.job.name = job.name) with
    | some f =>
      rw [entry] at found
      obtain ⟨_, -, _, moved⟩ := fireFrom_mem h (List.mem_of_find?_eq_some entry)
      cases found
      exact absurd due (Job.not_isDue_of_fire moved)
    | none =>
      rw [entry] at found
      refine ⟨⟨Table.mem_of_get? found.symm, due⟩, fun selected => ?_⟩
      have named : job.name ∈ (selectDue jobs.rows now limit).map (·.name) := List.mem_map_of_mem selected
      rw [← names] at named
      obtain ⟨f, hf, same⟩ := List.mem_map.mp named
      exact absurd (decide_eq_true same) (List.find?_eq_none.mp entry f hf)
  · rintro ⟨⟨member, due⟩, left⟩
    have absent : fired.find? (·.job.name = job.name) = none := by
      refine List.find?_eq_none.mpr fun f hf same => left ?_
      have named : f.job.name ∈ fired.map (·.job.name) := List.mem_map_of_mem hf
      rw [names] at named
      obtain ⟨other, selected, other_name⟩ := List.mem_map.mp named
      have stored := (mem_of_mem_selectDue selected).1
      exact Table.eq_of_key_eq stored member (other_name.trans (of_decide_eq_true same)) ▸ selected
    rw [absent, Table.get?_key member] at found
    exact ⟨Table.mem_of_get? found, due⟩

/-- A tick parts the jobs that are due into those that it fires and those that are due behind it. -/
theorem perm_due (h : fireFrom ids now maxAttempts place (selectDue jobs.rows now limit) = .ok fired) :
    (selectDue jobs.rows now limit ++ (afterFires jobs fired).rows.filter (·.isDue now)).Perm
      (jobs.rows.filter (·.isDue now)) := by
  have distinct (jobs : Table Job.name) : (jobs.rows.filter (·.isDue now)).Nodup :=
    (List.Nodup.of_map _ jobs.distinct).filter _
  refine (List.perm_ext_iff_of_nodup ?_ (distinct jobs)).mpr fun job => ?_
  · refine List.nodup_append.mpr ⟨.of_map _ (nodup_selectDue jobs now limit), distinct _, ?_⟩
    rintro job selected _ left rfl
    exact ((isDue_afterFires h job).mp (List.mem_filter.mp left)).2 selected
  · rw [List.mem_append, List.mem_filter, List.mem_filter, isDue_afterFires h]
    by_cases selected : job ∈ selectDue jobs.rows now limit
    · simp [selected, mem_of_mem_selectDue selected]
    · simp [selected]

/-- A store that is not poisoned fires the jobs that it selects, if all its jobs are sound. -/
theorem fireDue_ok (isOpen : s.poisoned = false) (sound : ∀ job ∈ s.jobs.rows, job.Sound) (here : now.InRange)
    (far : (now.add? longestDelay).isSome = true)
    (new : NewIds ids (min limit (s.jobs.rows.countP (·.isDue now))) s) :
    ∃ fired, fireFrom ids now maxAttempts 0 (selectDue s.jobs.rows now limit) = .ok fired ∧
      fireDue ids now limit maxAttempts s = (.ok fired, { s with
        tasks := (fired.map (·.fire.task)).foldl Table.put s.tasks
        jobs := afterFires s.jobs fired }) := by
  have selected : ∀ job ∈ selectDue s.jobs.rows now limit, job.Sound :=
    fun job hjob => sound job (mem_of_mem_selectDue hjob).1
  obtain ⟨fired, hf⟩ : ∃ fired, fireFrom ids now maxAttempts 0 (selectDue s.jobs.rows now limit) = .ok fired :=
    fireFrom_ok fun job hjob id => (selected job hjob).fires here far (mem_of_mem_selectDue hjob).2 id maxAttempts
  rw [← length_selectDue] at new
  refine ⟨fired, hf, ?_⟩
  rw [fireDue_apply, if_neg (Bool.eq_false_iff.mp isOpen), hf]
  dsimp only
  rw [checkBatch_fired hf new selected]
  rfl

theorem sound_afterFires (h : fireFrom ids now maxAttempts place (selectDue jobs.rows now limit) = .ok fired)
    (sound : ∀ job ∈ jobs.rows, job.Sound) : ∀ job ∈ (afterFires jobs fired).rows, job.Sound := by
  intro job member
  have found : (afterFires jobs fired).get? job.name = _ := get?_fired h job.name
  rw [Table.get?_key member] at found
  rcases Option.or_eq_some_iff.mp found.symm with moved | ⟨-, kept⟩
  · obtain ⟨f, entry, rfl⟩ := Option.map_eq_some_iff.mp moved
    obtain ⟨before, selected, _, moved⟩ := fireFrom_mem h (List.mem_of_find?_eq_some entry)
    exact (sound before (mem_of_mem_selectDue selected).1).of_fire moved
  · exact sound job (Table.mem_of_get? kept)

/-! ### Tick after tick -/

/-- Batches of fires that go through jobs in order, each as far as the limit allows. -/
structure Covers (now : Instant) (limit maxAttempts : Nat) (due : List Job) (batches : List (List FiredJob)) : Prop where
  fires : Fired now maxAttempts (due.take (batches.length * limit)) batches.flatten
  length : ∀ (k : Nat) (h : k < batches.length), batches[k].length = min limit (due.length - k * limit)

namespace Covers

theorem nil (now : Instant) (limit maxAttempts : Nat) (due : List Job) : Covers now limit maxAttempts due [] where
  fires := by
    rw [List.length_nil, Nat.zero_mul, List.take_zero, List.flatten_nil]
    exact .nil
  length := nofun

theorem cons (rest : Covers now limit maxAttempts due batches) (head : Fired now maxAttempts chosen fired)
    (full : chosen.length = min limit (chosen.length + due.length)) :
    Covers now limit maxAttempts (chosen ++ due) (fired :: batches) where
  fires := by
    -- Either the first batch is full, or there is nothing behind it.
    have behind : due.take ((batches.length + 1) * limit - chosen.length) = due.take (batches.length * limit) := by
      rw [Nat.succ_mul]
      by_cases more : due = []
      · rw [more, List.take_nil, List.take_nil]
      · have positive := List.length_pos_iff.mpr more
        congr 1
        omega
    have enough : chosen.length ≤ (batches.length + 1) * limit := by
      rw [Nat.succ_mul]
      omega
    rw [List.length_cons, List.take_append, List.take_of_length_le enough, behind, List.flatten_cons]
    exact List.rel_append head rest.fires
  length := fun k h => by
    cases k with
    | zero => rw [List.getElem_cons_zero, ← head.length_eq, List.length_append, Nat.zero_mul, Nat.sub_zero, ← full]
    | succ k =>
      rw [List.getElem_cons_succ, rest.length k (Nat.lt_of_succ_lt_succ h), List.length_append, Nat.succ_mul]
      omega

/-- The batches are empty from the first one on that has nothing left to fire. -/
theorem eq_nil_iff (h : Covers now limit maxAttempts due batches) (some : 1 ≤ limit) {k : Nat} (hk : k < batches.length) :
    batches[k] = [] ↔ due.length ⌈/⌉ limit ≤ k := by
  rw [ceilDiv_le_iff_le_mul some, ← List.length_eq_zero_iff, h.length k hk, Nat.mul_comm]
  omega

end Covers

/-- What ticks fire, as long as the store is not poisoned. -/
theorem exists_covers {answers : List (Outcome StoreFault (List FiredJob))} (here : now.InRange)
    (far : (now.add? longestDelay).isSome = true) (repeated : Repeated (ticks now limit maxAttempts) s answers s')
    (isOpen : s.poisoned = false) (sound : ∀ job ∈ s.jobs.rows, job.Sound) :
    ∃ due batches, answers = batches.map .ok ∧ due.Perm (s.jobs.rows.filter (·.isDue now)) ∧
      due.Pairwise (fun a b => a.nextRunAt ≤ b.nextRunAt) ∧ Covers now limit maxAttempts due batches := by
  induction repeated with
  | nil s =>
    exact ⟨_, [], rfl, List.mergeSort_perm _ fun a b => a.nextRunAt ≤ b.nextRunAt, pairwise_sorted _, .nil ..⟩
  | @cons s found s' _ answers order made _ ih =>
    obtain ⟨ids, new, rfl⟩ := made
    have foundSound : ∀ job ∈ found.jobs.rows, job.Sound := fun job member => sound job (order.jobs.mem_iff.mp member)
    obtain ⟨fired, hf, hs⟩ := fireDue_ok (order.poisoned.trans isOpen) foundSound here far new
    rw [hs] at ih ⊢
    obtain ⟨rest, batches, rfl, left, ordered, covers⟩ := ih (order.poisoned.trans isOpen) (sound_afterFires hf foundSound)
    have parted : (selectDue found.jobs.rows now limit ++ rest).Perm (found.jobs.rows.filter (·.isDue now)) :=
      (left.append_left _).trans (perm_due hf)
    refine ⟨_, fired :: batches, rfl, parted.trans (order.jobs.filter _), List.pairwise_append.mpr ⟨?_, ordered, ?_⟩,
      covers.cons (fired_of_fireFrom hf) ?_⟩
    · exact pairwise_selectDue _ _ _
    · intro earlier selected later behind
      obtain ⟨⟨member, due⟩, unselected⟩ := (isDue_afterFires hf later).mp (List.mem_filter.mp (left.mem_iff.mp behind))
      exact le_of_not_mem_selectDue member due unselected earlier selected
    · rw [← List.length_append, parted.length_eq, ← List.countP_eq_length_filter, length_selectDue]

/-- Ticks at one time cover the jobs that are due then. In every store that a run from the empty store leaves, and in
    whatever orders the tables give out their rows, tick after tick fires these jobs, each once and no others, by the
    times at which they were to fire, as many at a time as the limit allows; and the first tick that fires none comes when
    all of them have fired. If a call of the run has crashed, the lock refuses each of the ticks instead. -/
theorem ticks_cover {answers : List (Outcome StoreFault (List FiredJob))} (run : Run {} es s) (here : now.InRange)
    (far : (now.add? longestDelay).isSome = true) (some : 1 ≤ limit)
    (repeated : Repeated (ticks now limit maxAttempts) s answers s') :
    ((∀ e ∈ es, ¬e.Crashes) →
      ∃ due batches, answers = batches.map .ok ∧ due.Perm (s.jobs.rows.filter (·.isDue now)) ∧
        due.Pairwise (fun a b => a.nextRunAt ≤ b.nextRunAt) ∧ Covers now limit maxAttempts due batches ∧
        ∀ (k : Nat) (h : k < batches.length),
          batches[k] = [] ↔ (s.jobs.rows.countP (·.isDue now)) ⌈/⌉ limit ≤ k) ∧
    ((∃ e ∈ es, e.Crashes) →
      (∀ answer ∈ answers, answer = .error (.refused .poisoned)) ∧ ∀ name, s'.jobs.get? name = s.jobs.get? name) := by
  refine ⟨fun whole => ?_, fun crashed => ?_⟩
  · have isOpen : s.poisoned = false := by
      rw [← Bool.not_eq_true, run.poisoned_iff]
      rintro (⟨⟨⟩⟩ | ⟨e, he, crashes⟩)
      exact whole e he crashes
    obtain ⟨due, batches, answered, all, ordered, covers⟩ := exists_covers here far repeated isOpen run.jobs_sound
    refine ⟨due, batches, answered, all, ordered, covers, fun k h => ?_⟩
    rw [covers.eq_nil_iff some h, all.length_eq, List.countP_eq_length_filter]
  · have closed : ∀ s call, ticks now limit maxAttempts s call → s.poisoned = true →
        call s = (.error (.refused .poisoned), s) := by
      rintro s _ ⟨ids, -, rfl⟩ poisoned
      rw [fireDue_apply, if_pos poisoned]
    obtain ⟨refused, same⟩ := repeated.refused closed (run.poisoned_iff.mpr (Or.inr crashed))
    exact ⟨refused, same.getJob⟩

/-- A job is made, and another one is to be made at the end of the calendar, where no time to fire can be looked for. -/
def Call.overrun : List Call := Call.registered ++ [.upsert JobId.made [.plain "b" .everyMinute] ⟨Instant.lastSecond, 0⟩]

theorem ticks_cover_registered :
    ∃ (answers : List (Outcome StoreFault (List FiredJob))) (s' : Store) (batches : List (List FiredJob)),
      Repeated (ticks ⟨60, 0⟩ 1 3) (Call.afterAll Call.registered {}) answers s' ∧ answers = batches.map .ok ∧
      batches.map List.length = [1, 0] ∧
      (fireDue TaskId.made ⟨60, 0⟩ 1 3 (Call.afterAll Call.overrun {})).1 = .error (.refused .poisoned) := by
  have run : Run {} (Call.events Call.registered {}) (Call.afterAll Call.registered {}) := .of_calls Call.registered {}
  have unlocked : (Call.afterAll Call.registered {}).poisoned ≠ true := by decide
  have whole : ∀ e ∈ Call.events Call.registered {}, ¬e.Crashes := fun e he crashes =>
    unlocked (run.poisoned_iff.mpr (Or.inr ⟨e, he, crashes⟩))
  have one : (Call.afterAll Call.registered {}).jobs.rows.countP (·.isDue ⟨60, 0⟩) = 1 := by decide
  have none : (fireDue TaskId.made ⟨60, 0⟩ 1 3 (Call.afterAll Call.registered {})).2.jobs.rows.countP
    (·.isDue ⟨60, 0⟩) = 0 := by decide +kernel
  have first : ticks ⟨60, 0⟩ 1 3 (Call.afterAll Call.registered {}) (fireDue TaskId.made ⟨60, 0⟩ 1 3) :=
    ⟨TaskId.made, one.symm ▸ ⟨fun _ _ => rfl, fun i hi j hj _ => by omega⟩, rfl⟩
  have second : ticks ⟨60, 0⟩ 1 3 (fireDue TaskId.made ⟨60, 0⟩ 1 3 (Call.afterAll Call.registered {})).2
    (fireDue TaskId.made ⟨60, 0⟩ 1 3) := ⟨TaskId.made, none.symm ▸ ⟨nofun, nofun⟩, rfl⟩
  have repeated := Repeated.cons (.refl _) first (.cons (.refl _) second (.nil _))
  obtain ⟨due, batches, answered, all, -, covers, -⟩ :=
    (ticks_cover run (by decide) (by decide) (Nat.le_refl 1) repeated).1 whole
  obtain ⟨a, b, rfl⟩ := List.length_eq_two.mp ((congrArg List.length answered).trans (List.length_map _)).symm
  have single : due.length = 1 := by rw [all.length_eq, ← List.countP_eq_length_filter, one]
  have ha : a.length = min 1 (due.length - 0 * 1) := covers.length 0 (Nat.zero_lt_succ 1)
  have hb : b.length = min 1 (due.length - 1 * 1) := covers.length 1 Nat.one_lt_two
  refine ⟨_, _, _, repeated, answered, by simp [ha, hb, single], ?_⟩
  have overrun : Run {} (Call.events Call.overrun {}) (Call.afterAll Call.overrun {}) := .of_calls Call.overrun {}
  have poisoned : (Call.afterAll Call.overrun {}).poisoned = true := by decide
  have due : (Call.afterAll Call.overrun {}).jobs.rows.countP (·.isDue ⟨60, 0⟩) = 1 := by decide
  have tick : ticks ⟨60, 0⟩ 1 3 (Call.afterAll Call.overrun {}) (fireDue TaskId.made ⟨60, 0⟩ 1 3) :=
    ⟨TaskId.made, due.symm ▸ ⟨fun _ _ => rfl, fun i hi j hj _ => by omega⟩, rfl⟩
  exact ((ticks_cover overrun (by decide) (by decide) (Nat.le_refl 1) (.cons (.refl _) tick (.nil _))).2
    ((overrun.poisoned_iff.mp poisoned).resolve_left nofun)).1 _ (List.mem_singleton_self _)

/-- After the crash of a call that registers definitions the lock refuses a tick that has a job to fire. -/
theorem ticks_refused_overrun :
    ∃ es s, Run {} es s ∧ (∀ e ∈ es, ∃ ids specs now, e.call = .upsert ids specs now) ∧
      (⟨60, 0⟩ : Instant).InRange ∧ ((⟨60, 0⟩ : Instant).add? longestDelay).isSome = true ∧
      s.jobs.rows.countP (·.isDue ⟨60, 0⟩) = 1 ∧ NewIds TaskId.made 1 s ∧
      (fireDue TaskId.made ⟨60, 0⟩ 1 3 s).1 = .error (.refused .poisoned) := by
  have poisoned : (Call.afterAll Call.overrun {}).poisoned = true := by decide
  refine ⟨_, _, Run.of_calls Call.overrun {}, fun e he => ?_, by decide, by decide, by decide,
    ⟨fun _ _ => rfl, fun i hi j hj _ => by omega⟩, ?_⟩
  · rcases List.mem_cons.mp he with rfl | he
    · exact ⟨_, _, _, rfl⟩
    · obtain rfl := List.mem_singleton.mp he
      exact ⟨_, _, _, rfl⟩
  · rw [fireDue_apply, if_pos poisoned]

end Store
end DurableQueue
