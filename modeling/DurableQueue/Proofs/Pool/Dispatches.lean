import DurableQueue.Proofs.Pool.Run
import DurableQueue.Simulation.Work

/-! What an event does to the dispatches of a pool. Permits, the line and the life of the pool do not touch them: a claim
    adds a dispatch, and every other event that concerns one moves this one alone, from a phase to the next. The tally
    and the history of its task move with it. `Step.works` says so of all events at once. -/

namespace DurableQueue

/-- The call of the store that goes with the end of a handler. -/
inductive Resolves (id : TaskId) (now : Instant) : Handling → StoreM Unit → Prop where
  | succeeded : Resolves id now .succeeded (Store.complete id now)
  | requeued (reason : String) : Resolves id now (.faulted (.requeue reason)) (Store.requeue id now)
  | failed (message : String) :
      Resolves id now (.faulted (.failed message)) (discard (Store.failAttempt id message now))
  | crashed : Resolves id now (.crashed none) (discard (Store.failAttempt id "handler panicked" now))
  | crashedWith (text : String) :
      Resolves id now (.crashed (some text)) (discard (Store.failAttempt id ("handler panicked: " ++ text) now))

theorem Resolution.resolves_of (id : TaskId) (now : Instant) (ending : Handling) :
    Resolves id now ending (Simulation.write id now (.of ending)) := by
  rcases ending with _ | (message | reason) | (_ | text)
  · exact .succeeded
  · exact .failed message
  · exact .requeued reason
  · exact .crashed
  · exact .crashedWith text

/-- Whether the task of a dispatch is not resolved. -/
def DispatchPhase.isPending : DispatchPhase → Bool
  | done => false
  | _ => true

namespace Pool

/-! ### Counting -/

/-- Changing one element of a list changes what is counted by this element alone. -/
theorem countP_modify {α : Type} {l : List α} {i : Nat} {a : α} (found : l[i]? = some a) (f : α → α) (q : α → Bool) :
    (l.modify i f).countP q + (q a).toNat = l.countP q + (q (f a)).toNat := by
  have toNat (b : Bool) : b.toNat = if b = true then 1 else 0 := by cases b <;> rfl
  induction l generalizing i with
  | nil => cases found
  | cons b rest ih =>
    cases i with
    | zero =>
      obtain rfl := Option.some.inj found
      rw [List.modify_zero_cons, List.countP_cons, List.countP_cons, toNat, toNat]
      omega
    | succ i =>
      have tail := ih found
      rw [List.modify_succ_cons, List.countP_cons, List.countP_cons]
      omega

/-- The dispatches in the phases that are asked for. -/
def count (p : Pool) (q : DispatchPhase → Bool) : Nat := p.dispatches.countP (q ·.phase)

/-- The claimed tasks whose dispatches are not over. -/
def pending (p : Pool) : Nat := p.count DispatchPhase.isPending

section
variable {p q : Pool} {i j : Nat} {task : Task} {phase next : DispatchPhase}

theorem count_same (same : q.dispatches = p.dispatches) (f : DispatchPhase → Bool) : q.count f = p.count f := by
  rw [count, count, same]

theorem count_claimed (dispatches : q.dispatches = p.dispatches ++ [⟨i, task, .spawned⟩]) (f : DispatchPhase → Bool) :
    q.count f = p.count f + (f .spawned).toNat := by
  rw [count, count, dispatches, List.countP_append, List.countP_singleton]
  cases f .spawned <;> rfl

theorem count_moved (found : p.dispatches[j]? = some ⟨i, task, phase⟩)
    (dispatches : q.dispatches = (p.advance j next).dispatches) (f : DispatchPhase → Bool) :
    q.count f + (f phase).toNat = p.count f + (f next).toNat := by
  rw [count, count, dispatches]
  exact countP_modify found _ fun d => f d.phase

end

/-! ### What leaves the dispatches alone -/

/-- The dispatches of a pool and its tally stay as they are. -/
structure Rests (p q : Pool) : Prop where
  dispatches : q.dispatches = p.dispatches
  tally : q.tally = p.tally

namespace Rests
variable {p q r : Pool} {i : Nat}

theorem refl (p : Pool) : p.Rests p := ⟨rfl, rfl⟩

theorem trans (h : p.Rests q) (h' : q.Rests r) : p.Rests r := ⟨h'.dispatches.trans h.dispatches, h'.tally.trans h.tally⟩

theorem enter (p : Pool) (i : Nat) (phase : PollerPhase) : p.Rests (p.enter i phase) := ⟨rfl, rfl⟩

theorem release (p : Pool) : p.Rests p.release := by
  unfold Pool.release
  split
  · exact ⟨rfl, rfl⟩
  · split <;> exact ⟨rfl, rfl⟩
  · exact ⟨rfl, rfl⟩

theorem seek (p : Pool) (i : Nat) : p.Rests (p.seek i) := by
  unfold Pool.seek
  split
  · exact .enter p i _
  · split <;> exact ⟨rfl, rfl⟩

theorem wake (p : Pool) (i : Nat) : p.Rests (p.wake i) := by
  unfold Pool.wake
  split
  · exact .refl p
  · split
    · exact .seek p i
    · exact .seek p i
    · split
      · exact ⟨rfl, rfl⟩
      · exact .refl p
    · split
      · exact (Rests.enter p i .ended).trans (.release _)
      · exact .enter p i _
    · exact .refl p

theorem pollerCrashed (p : Pool) (i : Nat) : p.Rests (p.pollerCrashed i) := by
  unfold Pool.pollerCrashed
  split
  · exact (Rests.enter p i .ended).trans (.release _)
  · exact .refl p

theorem register (p : Pool) (pattern : String) : p.Rests (p.orSame (p.register pattern)) := by
  unfold Pool.register
  split
  · exact .refl p
  · cases Pattern.read pattern <;> exact ⟨rfl, rfl⟩

theorem start (p : Pool) : p.Rests (p.orSame p.start) := by
  unfold Pool.start
  split <;> exact ⟨rfl, rfl⟩

theorem stop (p : Pool) : p.Rests (p.orSame p.stop) := by
  unfold Pool.stop
  split <;> exact ⟨rfl, rfl⟩

theorem collect (p : Pool) : p.Rests p.collect := by
  unfold Pool.collect
  split <;> exact ⟨rfl, rfl⟩

theorem leave (p : Pool) : p.Rests p.leave := by
  unfold Pool.leave
  split <;> exact ⟨rfl, rfl⟩

end Rests

/-! ### Steps of a dispatch -/

theorem stageAt_eq_some {p : Pool} {j : Nat} {phase : DispatchPhase} :
    p.stageAt j = some phase ↔ ∃ i task, p.dispatches[j]? = some ⟨i, task, phase⟩ := by
  unfold stageAt
  rw [Option.map_eq_some_iff]
  constructor
  · rintro ⟨⟨i, task, _⟩, found, rfl⟩
    exact ⟨i, task, found⟩
  · rintro ⟨i, task, found⟩
    exact ⟨_, found, rfl⟩

/-- How a dispatch moves from a phase to the next, with the tally before and after and what becomes of its task. -/
inductive Turn (i : Nat) (task : Task) : DispatchPhase → DispatchPhase → Tally → Tally → List Deed → Prop where
  | begins (t : Tally) : Turn i task .spawned .handling t { t with inFlight := t.inFlight + 1 } [.called i task]
  | ends (t : Tally) (ending : Handling) : Turn i task .handling (.resolving (.of ending)) t (t.handled (.of ending))
      [.ended ending, .asked task.id (.of ending)]
  | answers (t : Tally) (resolution : Resolution) (taken : Bool) : Turn i task (.resolving resolution) .done t
      { t.resolved resolution taken with inFlight := (t.resolved resolution taken).inFlight - 1 } [.answered taken]

theorem Turn.isPending {i : Nat} {task : Task} {phase next : DispatchPhase} {t t' : Tally} {deeds : List Deed}
    (turn : Turn i task phase next t t' deeds) : phase.isPending = true := by
  cases turn <;> rfl

namespace Step

/-- What a step does to the dispatches and the tally, and what becomes of tasks in it. -/
inductive Works (step : Step) : Prop where
  | rests (same : step.before.Rests step.after) (claimed : step.claimed = []) (settles : step.settles = false)
      (deeds : ∀ j, step.deeds j = [])
  | claims {i : Nat} {task : Task} (dispatches : step.after.dispatches = step.before.dispatches ++ [⟨i, task, .spawned⟩])
      (tally : step.after.tally = step.before.tally) (claimed : step.claimed = [(i, task)])
      (settles : step.settles = false) (deeds : ∀ j, step.deeds j = [])
  | moves {i j : Nat} {task : Task} {phase next : DispatchPhase}
      (found : step.before.dispatches[j]? = some ⟨i, task, phase⟩)
      (dispatches : step.after.dispatches = (step.before.advance j next).dispatches)
      (turn : Turn i task phase next step.before.tally step.after.tally (step.deeds j))
      (claimed : step.claimed = []) (settles : step.settles = true ↔ next = .done) (others : ∀ k ≠ j, step.deeds k = [])
  | crashes {i j : Nat} {task : Task} {resolution : Resolution} (crash : step.crashes = true)
      (found : step.before.dispatches[j]? = some ⟨i, task, .resolving resolution⟩)
      (dispatches : step.after.dispatches = (step.before.advance j .done).dispatches)
      (tally : step.after.tally = step.before.tally) (claimed : step.claimed = []) (settles : step.settles = true)
      (deeds : ∀ j, step.deeds j = [])

section
variable {p : Pool} {i j : Nat}

theorem works_wake : (Step.mk (.wake i) p).Works := by
  refine .rests (.wake p i) rfl rfl fun j => ?_
  show (p.requests (.wake i)).filterMap (Request.deed? j) = []
  simp only [Pool.requests]
  split
  · split <;> rfl
  · rfl

theorem works_claimed {answer : Option Task} : (Step.mk (.claimed i answer) p).Works := by
  by_cases asks : p.phaseAt i = some .claiming
  · cases answer with
    | none =>
      have after : (Step.mk (.claimed i none) p).after = (p.enter i (if p.signalled then .ended else .resting)).release := by
        simp only [Step.after, Pool.after, Pool.claimed, asks]
      exact .rests (after ▸ (Rests.enter p i _).trans (.release _)) rfl rfl fun _ => rfl
    | some task =>
      have after : (Step.mk (.claimed i (some task)) p).after = (p.spawn i task).enter i .ready := by
        simp only [Step.after, Pool.after, Pool.claimed, asks]
      exact .claims (by rw [after]; rfl) (by rw [after]; rfl) (if_pos asks) rfl fun _ => rfl
  · have after : (Step.mk (.claimed i answer) p).after = p := by
      simp only [Step.after, Pool.after, Pool.claimed]
      split <;> simp_all
    have none : (Step.mk (.claimed i answer) p).claimed = [] := by
      cases answer with
      | none => rfl
      | some task => exact if_neg asks
    exact .rests (after.symm ▸ .refl p) none rfl fun _ => rfl

theorem works_begun : (Step.mk (.begun j) p).Works := by
  by_cases stage : p.stageAt j = some .spawned
  · obtain ⟨i, task, found⟩ := stageAt_eq_some.mp stage
    have after : (Step.mk (.begun j) p).after =
        { p with tally.inFlight := p.tally.inFlight + 1 }.advance j .handling := by
      simp only [Step.after, Pool.after, Pool.begun, stage]
    have deeds (k : Nat) : (Step.mk (.begun j) p).deeds k = if j = k then [.called i task] else [] := by
      show (p.requests (.begun j)).filterMap (Request.deed? k) = _
      simp only [Pool.requests, found, List.filterMap_cons, Request.deed?, List.filterMap_nil]
      split <;> simp_all
    refine .moves found (by rw [after]; rfl) ?_ rfl ?_ fun k other => ?_
    · rw [after, deeds, if_pos rfl]
      exact .begins p.tally
    · exact iff_of_false nofun nofun
    · rw [deeds, if_neg other.symm]
  · have after : (Step.mk (.begun j) p).after = p := by
      simp only [Step.after, Pool.after, Pool.begun]
    have requests : p.requests (.begun j) = [] := by
      simp only [Pool.requests]
      split
      · next found => exact absurd (stageAt_eq_some.mpr ⟨_, _, found⟩) stage
      · rfl
    exact .rests (after.symm ▸ .refl p) rfl rfl fun k => congrArg (List.filterMap (Request.deed? k)) requests

theorem works_handled {ending : Handling} : (Step.mk (.handled j ending) p).Works := by
  by_cases stage : p.stageAt j = some .handling
  · obtain ⟨i, task, found⟩ := stageAt_eq_some.mp stage
    have after : (Step.mk (.handled j ending) p).after =
        { p with tally := p.tally.handled (.of ending) }.advance j (.resolving (.of ending)) := by
      simp only [Step.after, Pool.after, Pool.handled, stage]
    have deeds (k : Nat) : (Step.mk (.handled j ending) p).deeds k =
        if j = k then [.ended ending, .asked task.id (.of ending)] else [] := by
      simp only [Step.deeds, Step.told, Step.requests, Pool.requests, found, List.filterMap_cons, Request.deed?,
        List.filterMap_nil]
      by_cases same : j = k
      · subst same
        simp [stage]
      · simp [same]
    refine .moves found (by rw [after]; rfl) ?_ rfl ?_ fun k other => ?_
    · rw [after, deeds, if_pos rfl]
      exact .ends p.tally ending
    · exact iff_of_false nofun nofun
    · rw [deeds, if_neg other.symm]
  · have after : (Step.mk (.handled j ending) p).after = p := by
      simp only [Step.after, Pool.after, Pool.handled]
    have deeds (k : Nat) : (Step.mk (.handled j ending) p).deeds k = [] := by
      have told : (Step.mk (.handled j ending) p).told k = [] := if_neg fun ⟨same, h⟩ => stage (same ▸ h)
      have requests : p.requests (.handled j ending) = [] := by
        simp only [Pool.requests]
        split
        · next found => exact absurd (stageAt_eq_some.mpr ⟨_, _, found⟩) stage
        · rfl
      simp only [Step.deeds, Step.requests, told, requests, List.filterMap_nil, List.append_nil]
    exact .rests (after.symm ▸ .refl p) rfl rfl deeds

theorem works_resolved {taken : Bool} : (Step.mk (.resolved j taken) p).Works := by
  by_cases asking : p.asking j = true
  · obtain ⟨resolution, stage⟩ := asking_iff.mp asking
    obtain ⟨i, task, found⟩ := stageAt_eq_some.mp stage
    have after : (Step.mk (.resolved j taken) p).after =
        ({ p with tally :=
            { p.tally.resolved resolution taken with
              inFlight := (p.tally.resolved resolution taken).inFlight - 1 } }.advance j .done).release := by
      simp only [Step.after, Pool.after, Pool.resolved, stage]
    have same := after.symm ▸ Rests.release _
    have deeds (k : Nat) : (Step.mk (.resolved j taken) p).deeds k = if j = k then [.answered taken] else [] := by
      simp only [Step.deeds, Step.told, Step.requests, Pool.requests, List.filterMap_nil, List.append_nil]
      by_cases same : j = k
      · subst same
        simp [asking]
      · simp [same]
    refine .moves found same.dispatches ?_ rfl ?_ fun k other => ?_
    · rw [same.tally, deeds, if_pos rfl]
      exact .answers p.tally resolution taken
    · exact iff_of_true asking rfl
    · rw [deeds, if_neg other.symm]
  · have after : (Step.mk (.resolved j taken) p).after = p := by
      simp only [Step.after, Pool.after, Pool.resolved]
      split
      · next h => exact absurd (asking_iff.mpr ⟨_, h⟩) asking
      · rfl
    have deeds (k : Nat) : (Step.mk (.resolved j taken) p).deeds k = [] := by
      have told : (Step.mk (.resolved j taken) p).told k = [] := if_neg fun ⟨same, h⟩ => asking (same ▸ h)
      simp only [Step.deeds, Step.requests, told, Pool.requests, List.filterMap_nil, List.append_nil]
    exact .rests (after.symm ▸ .refl p) rfl (Bool.eq_false_iff.mpr asking) deeds

theorem works_dispatchCrashed : (Step.mk (.dispatchCrashed j) p).Works := by
  by_cases asking : p.asking j = true
  · obtain ⟨resolution, stage⟩ := asking_iff.mp asking
    obtain ⟨i, task, found⟩ := stageAt_eq_some.mp stage
    have after : (Step.mk (.dispatchCrashed j) p).after = (p.advance j .done).release := by
      simp only [Step.after, Pool.after, Pool.dispatchCrashed, stage]
    have same := after.symm ▸ Rests.release (p.advance j .done)
    exact .crashes rfl found same.dispatches same.tally rfl asking fun _ => rfl
  · have after : (Step.mk (.dispatchCrashed j) p).after = p := by
      simp only [Step.after, Pool.after, Pool.dispatchCrashed]
      split
      · next h => exact absurd (asking_iff.mpr ⟨_, h⟩) asking
      · rfl
    exact .rests (after.symm ▸ .refl p) rfl (Bool.eq_false_iff.mpr asking) fun _ => rfl

end

theorem works (step : Step) : step.Works := by
  obtain ⟨event, p⟩ := step
  cases event with
  | register pattern => exact .rests (.register p pattern) rfl rfl fun _ => rfl
  | start => exact .rests (.start p) rfl rfl fun _ => rfl
  | stop => exact .rests (.stop p) rfl rfl fun _ => rfl
  | wake i => exact works_wake
  | claimed i answer => exact works_claimed
  | pollerCrashed i => exact .rests (.pollerCrashed p i) rfl rfl fun _ => rfl
  | begun j => exact works_begun
  | handled j ending => exact works_handled
  | resolved j taken => exact works_resolved
  | dispatchCrashed j => exact works_dispatchCrashed
  | collect => exact .rests (.collect p) rfl rfl fun _ => rfl
  | leave => exact .rests (.leave p) rfl rfl fun _ => rfl

end Step
end Pool
end DurableQueue
