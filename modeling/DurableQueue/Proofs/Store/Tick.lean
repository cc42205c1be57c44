import DurableQueue.Proofs.Store.Event

/-! What one tick does, as a whole. The jobs that it chooses are the first of those that are due, by the time of their
    fire, and no more than its limit; it fires each of them once, writes the jobs as they are then in the place of what
    they were, and adds the task of each fire. In which order the table gives out its rows does not matter: among jobs that
    were to fire at the same time it may decide which of them are left for the next tick, but nothing else. -/

namespace DurableQueue
namespace Store

variable {s s' : Store} {now : Instant} {limit : Nat} {chosen : List Job}

/-- Jobs that a tick may choose: of those that are due as many as the limit allows, each once, by the time of their fire,
    and none that was to fire later than one that is left out. -/
structure Chosen (jobs : Table Job.name) (now : Instant) (limit : Nat) (chosen : List Job) : Prop where
  length : chosen.length = min limit (jobs.rows.countP (·.isDue now))
  due : ∀ job ∈ chosen, jobs.get? job.name = some job ∧ job.isDue now = true
  distinct : (chosen.map (·.name)).Nodup
  ordered : chosen.Pairwise fun a b => a.nextRunAt ≤ b.nextRunAt
  first : ∀ job ∈ jobs.rows, job.isDue now = true → job ∉ chosen → ∀ other ∈ chosen, other.nextRunAt ≤ job.nextRunAt

theorem chosen_selectDue (jobs : Table Job.name) (now : Instant) (limit : Nat) :
    Chosen jobs now limit (selectDue jobs.rows now limit) where
  length := length_selectDue _ _ _
  due := fun _ hjob => ⟨Table.get?_key (mem_of_mem_selectDue hjob).1, (mem_of_mem_selectDue hjob).2⟩
  distinct := nodup_selectDue _ _ _
  ordered := pairwise_selectDue _ _ _
  first := fun _ hjob due left => le_of_not_mem_selectDue hjob due left

theorem Chosen.perm {jobs jobs' : Table Job.name} (h : Chosen jobs now limit chosen) (order : jobs.rows.Perm jobs'.rows) :
    Chosen jobs' now limit chosen where
  length := by rw [h.length, order.countP_eq]
  due := fun job hjob => ⟨(Table.get?_perm order _).symm.trans (h.due job hjob).1, (h.due job hjob).2⟩
  distinct := h.distinct
  ordered := h.ordered
  first := fun job hjob => h.first job (order.mem_iff.mpr hjob)

/-- After the fires a job is found as its fire has left it, and every other job as it was. -/
theorem get?_fired {jobs : Table Job.name} {ids : Nat → TaskId} {maxAttempts place : Nat} {fired : List FiredJob}
    (h : fireFrom ids now maxAttempts place (selectDue jobs.rows now limit) = .ok fired) (name : String) :
    (fired.foldl (fun jobs f => jobs.put f.job) jobs).get? name =
      ((fired.find? (·.job.name = name)).map (·.job)).or (jobs.get? name) := by
  have distinct : ((fired.map (·.job)).map (·.name)).Nodup := by
    rw [List.map_map]
    exact fireFrom_names h ▸ nodup_selectDue jobs now limit
  have found := Table.get?_foldl_put (t := jobs) distinct name
  rw [List.foldl_map, List.find?_map] at found
  exact found

theorem find?_fired {jobs : Table Job.name} {ids : Nat → TaskId} {maxAttempts place : Nat} {fired : List FiredJob}
    (h : fireFrom ids now maxAttempts place (selectDue jobs.rows now limit) = .ok fired) {f : FiredJob} (hf : f ∈ fired) :
    fired.find? (·.job.name = f.job.name) = some f := by
  let entries : Table (fun f : FiredJob => f.job.name) := ⟨fired, fireFrom_names h ▸ nodup_selectDue jobs now limit⟩
  exact Table.get?_key (t := entries) hf

/-- A job that is to fire every minute, the next time at a given one. -/
def minutely (name : String) (next : Instant) : Job where
  id := .made 0
  name := name
  expression := .everyMinute
  status := .active
  subject := "a"
  payload := []
  delay := .zero
  nextRunAt := next
  lastRunAt := none
  createdAt := .epoch
  updatedAt := .epoch

/-- Three jobs that are due, of which two were to fire at the same time. -/
def threeDue : Table Job.name := ⟨[minutely "a" ⟨30, 0⟩, minutely "b" ⟨60, 0⟩, minutely "c" ⟨60, 0⟩], by decide⟩

/-- The same jobs in another order. -/
def threeDueReversed : Table Job.name := ⟨[minutely "c" ⟨60, 0⟩, minutely "b" ⟨60, 0⟩, minutely "a" ⟨30, 0⟩], by decide⟩

/-- One tick, for every order in which the table of jobs may give out its rows. -/
theorem tick_exact {ids : Nat → TaskId} {maxAttempts : Nat} {jobs : Table Job.name} {fired : List FiredJob}
    (order : jobs.rows.Perm s.jobs.rows) (h : fireDue ids now limit maxAttempts { s with jobs } = (.ok fired, s')) :
    ∃ chosen, Chosen s.jobs now limit chosen ∧
      fired.length = chosen.length ∧ fired.map (·.job.name) = chosen.map (·.name) ∧
      (∀ (i : Nat) (job : Job) (f : FiredJob), chosen[i]? = some job → fired[i]? = some f →
        job.fire (ids i) now maxAttempts = .ok (f.job, f.fire)) ∧
      (∀ name, s'.jobs.get? name = ((fired.find? (·.job.name = name)).map (·.job)).or (s.jobs.get? name)) ∧
      s'.tasks.rows = s.tasks.rows ++ fired.map (·.fire.task) := by
  rcases fireDue_cases ids now limit maxAttempts { s with jobs } with ⟨e, poisoned, hs⟩ | ⟨-, entries, hf, hc, hs⟩
  · rw [hs] at h
    cases h
  · rw [hs] at h
    cases h
    obtain ⟨length, fires⟩ := fireFrom_getElem? hf
    refine ⟨selectDue jobs.rows now limit, (chosen_selectDue jobs now limit).perm order, length, fireFrom_names hf,
      fun i job f hjob hf => ?_, fun name => ?_, ?_⟩
    · have moved := fires i job f hjob hf
      rwa [Nat.zero_add] at moved
    · rw [← Table.get?_perm order]
      exact get?_fired hf name
    · obtain ⟨fresh, distinct⟩ := checkBatch_eq_ok_iff.mp hc
      exact Table.rows_foldl_put (fun t ht => (fresh t ht).1) distinct

theorem tick_exact_tied :
    ∃ fired s', threeDueReversed.rows.Perm threeDue.rows ∧
      fireDue TaskId.made ⟨100, 0⟩ 2 3 { jobs := threeDueReversed } = (.ok fired, s') ∧
      fired.map (·.job.name) = ["a", "c"] ∧
      ∃ chosen, Chosen threeDue ⟨100, 0⟩ 2 chosen ∧ fired.length = chosen.length := by
  have order : threeDueReversed.rows.Perm threeDue.rows := List.reverse_perm threeDue.rows
  have due : threeDueReversed.rows.filter (·.isDue ⟨100, 0⟩) = threeDueReversed.rows := by decide
  have selected : selectDue threeDueReversed.rows ⟨100, 0⟩ 2 = [minutely "a" ⟨30, 0⟩, minutely "c" ⟨60, 0⟩] := by
    rw [selectDue, due]
    simp [threeDueReversed, minutely, List.mergeSort, List.MergeSort.Internal.splitInTwo, Instant.le_def,
      Instant.lt_def]
  have run : ∃ fired s', fireDue TaskId.made ⟨100, 0⟩ 2 3 { jobs := threeDueReversed } = (.ok fired, s') ∧
      fired.map (·.job.name) = ["a", "c"] := by
    rw [fireDue_apply, selected]
    exact ⟨_, _, rfl, rfl⟩
  obtain ⟨fired, s', run, names⟩ := run
  obtain ⟨chosen, isChosen, length, -⟩ := tick_exact (s := { jobs := threeDue }) order run
  exact ⟨fired, s', order, run, names, chosen, isChosen, length⟩

end Store
end DurableQueue
