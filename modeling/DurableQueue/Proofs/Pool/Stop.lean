import DurableQueue.Proofs.Pool.Handled
import DurableQueue.Proofs.Pool.Permits

/-! Stopping a pool. From the signal on no poller asks the store for another task, wherever it stood when the signal was
    given. The stop collects permits when all pollers have ended, and has them all when no dispatch is pending: a claim
    that was under way at the signal still makes a dispatch, whose permit the stop does not get before its end. -/

namespace DurableQueue
namespace Pool

section
variable {ε : Type} {n limit : Nat} {p q : Pool} {es : List Step} {step : Step} {i : Nat} {phase : PollerPhase}

/-! ### The signal -/

/-- Where a pool is in its life, and whether the signal to stop has been given. -/
def life (p : Pool) : Lifecycle × Bool := (p.lifecycle, p.signalled)

theorem life_release (p : Pool) : p.release.life = p.life := by
  unfold release
  split
  · rfl
  · split <;> rfl
  · rfl

theorem life_seek (p : Pool) (i : Nat) : (p.seek i).life = p.life := by
  unfold seek
  split
  · rfl
  · split <;> rfl

theorem life_wake (p : Pool) (i : Nat) : (p.wake i).life = p.life := by
  unfold wake
  split
  · rfl
  · split
    · exact life_seek p i
    · exact life_seek p i
    · split <;> rfl
    · split
      · exact life_release _
      · rfl
    · rfl

/-- How an event changes where a pool is in its life. -/
inductive Ages : Lifecycle × Bool → Event → Lifecycle × Bool → Prop where
  | stays (life : Lifecycle × Bool) (event : Event) : Ages life event life
  | starts (signalled : Bool) : Ages (.idle, signalled) .start (.running, signalled)
  | stops (signalled : Bool) : Ages (.running, signalled) .stop (.stopping, true)
  | leaves (signalled : Bool) : Ages (.stopping, signalled) .leave (.stopped, signalled)

theorem Ages.of_eq {life life' : Lifecycle × Bool} {event : Event} (same : life' = life) : Ages life event life' :=
  same ▸ .stays life event

theorem Step.ages (step : Step) : Ages step.before.life step.event step.after.life := by
  obtain ⟨event, p⟩ := step
  show Ages p.life event (p.after event).life
  cases event with
  | register pattern =>
    simp only [Pool.after, register]
    split
    · exact .stays ..
    · cases Pattern.read pattern <;> exact .stays ..
  | start =>
    simp only [Pool.after, start]
    split
    · exact .stays ..
    · next idle =>
      have before : p.life = (.idle, p.signalled) := by rw [life, Decidable.not_not.mp idle]
      exact before ▸ .starts p.signalled
  | stop =>
    simp only [Pool.after, stop]
    split
    · exact .stays ..
    · next running =>
      have before : p.life = (.running, p.signalled) := by rw [life, Decidable.not_not.mp running]
      exact before ▸ .stops p.signalled
  | wake i => exact .of_eq (life_wake p i)
  | begun j | handled j ending =>
    simp only [Pool.after, begun, handled]
    split <;> exact .stays ..
  | pollerCrashed i | resolved j taken | dispatchCrashed j =>
    simp only [Pool.after, pollerCrashed, resolved, dispatchCrashed]
    split
    · exact .of_eq (life_release _)
    · exact .stays ..
  | claimed i answer =>
    simp only [Pool.after, Pool.claimed]
    split
    · exact .stays ..
    · exact .of_eq (life_release _)
    · exact .stays ..
  | collect =>
    simp only [Pool.after, collect]
    split <;> exact .stays ..
  | leave =>
    simp only [Pool.after, leave]
    split
    · next stopping =>
      have before : p.life = (.stopping, p.signalled) := by rw [life, stopping]
      exact before ▸ .leaves p.signalled
    · exact .stays ..

/-- The signal is never taken back. -/
theorem Ages.signalled {life life' : Lifecycle × Bool} {event : Event} (h : Ages life event life')
    (signalled : life.2 = true) : life'.2 = true := by
  cases h <;> first | exact signalled | rfl

theorem Ages.stopping {life life' : Lifecycle × Bool} {event : Event} (h : Ages life event life')
    (waits : event ≠ .leave) (stopping : life.1 = .stopping) : life'.1 = .stopping := by
  cases h with
  | stays => exact stopping
  | stops => rfl
  | starts => cases stopping
  | leaves => exact absurd rfl waits

theorem phaseAt_release (p : Pool) (i : Nat) :
    p.release.phaseAt i = p.phaseAt i ∨ p.release.phaseAt i = some .granted := by
  unfold release
  split
  · next first rest _ =>
    rw [phaseAt_enter]
    cases found : p.phaseAt i with
    | none => exact Or.inl (Option.map_eq_none_iff.mpr found)
    | some phase =>
      have here : Pool.phaseAt { p with line := rest } i = some phase := found
      rw [here, Option.map_some]
      by_cases same : first = i
      · exact Or.inr (by rw [if_pos same])
      · exact Or.inl (by rw [if_neg same])
  · split <;> exact Or.inl rfl
  · exact Or.inl rfl

theorem phaseAt_ended (found : p.phaseAt i = some phase) : (p.enter i .ended).phaseAt i = some .ended := by
  rw [phaseAt_enter, found, Option.map_some, if_pos rfl]

/-- A poller that wakes up after the signal does not ask the store for a task. -/
theorem not_claiming_of_wake (signalled : p.signalled = true) (idle : p.phaseAt i ≠ some .claiming) :
    (p.wake i).phaseAt i ≠ some .claiming := by
  unfold wake
  split
  · exact idle
  · split
    · next found =>
      rw [seek, if_pos signalled, phaseAt_ended found]
      nofun
    · next found =>
      rw [seek, if_pos signalled, phaseAt_ended found]
      nofun
    · next found =>
      have ended : ({ p with line := p.line.erase i }.enter i .ended).phaseAt i = some .ended := phaseAt_ended found
      rw [ended]
      nofun
    · next found =>
      -- The permit may go to somebody in line, who does not ask the store before it wakes up.
      rcases phaseAt_release (p.enter i .ended) i with same | granted
      · rw [same, phaseAt_ended found]
        nofun
      · rw [granted]
        nofun
    · exact idle

theorem no_claim (signalled : step.before.signalled = true) (i : Nat) (pattern : Pattern) :
    .claim i pattern ∉ step.requests := by
  obtain ⟨event, p⟩ := step
  change p.signalled = true at signalled
  show .claim i pattern ∉ p.requests event
  cases event with
  | wake k =>
    simp only [requests]
    split
    · next poller found =>
      rw [if_neg]
      · exact List.not_mem_nil
      · rintro ⟨idle, claiming⟩
        refine not_claiming_of_wake signalled ?_ claiming
        rw [phaseAt, found]
        exact fun same => idle (Option.some.inj same)
    · exact List.not_mem_nil
  | begun j | handled j ending =>
    simp only [requests]
    split <;> simp
  | _ => exact List.not_mem_nil

/-! ### The end -/

theorem drained_iff : p.drained = true ↔ ∃ d, p.drain = some d ∧ p.drainGoal ≤ d := by
  unfold drained
  cases p.drain with
  | none => exact iff_of_false nofun nofun
  | some d => simp

theorem held_of_allEnded (ended : p.allEnded = true) : p.held = 0 := by
  refine List.countP_eq_zero.mpr fun poller member => ?_
  have phase : poller.phase = .ended := of_decide_eq_true (List.all_eq_true.mp ended poller member)
  rw [phase]
  nofun

/-- Once all pollers have ended, a stop that looks for permits collects them. -/
theorem exists_drain_collect (stopping : p.lifecycle = .stopping) (ended : p.allEnded = true) :
    ∃ d, p.collect.drain = some d := by
  by_cases undrained : p.drain = none
  · rw [collect, if_pos ⟨stopping, ended, undrained⟩]
    exact ⟨_, rfl⟩
  · rw [collect, if_neg fun h => undrained h.2.2]
    exact Option.ne_none_iff_exists'.mp undrained

namespace Balanced

theorem drainGoal_eq (h : p.Balanced limit 0) (small : limit ≤ greatestDrain) : p.drainGoal = limit := by
  rw [drainGoal, h.limit_eq]
  exact Nat.min_eq_left small

/-- A stop that has all permits has outlasted all pollers and all dispatches. -/
theorem of_drained (h : p.Balanced limit 0) (small : limit ≤ greatestDrain) (drained : p.drained = true) :
    p.allEnded = true ∧ p.pending = 0 := by
  obtain ⟨d, drain, enough⟩ := drained_iff.mp drained
  obtain ⟨-, ended, -⟩ := h.drains d drain
  have whole := h.total
  have all : p.collected = d := by rw [collected, drain]; rfl
  rw [h.drainGoal_eq small] at enough
  exact ⟨ended, by omega⟩

theorem drained_of_drain {d : Nat} (h : p.Balanced limit 0) (small : limit ≤ greatestDrain) (drain : p.drain = some d)
    (none : p.pending = 0) : p.drained = true := by
  obtain ⟨-, ended, -, spent⟩ := h.drains d drain
  have whole := h.total
  have held := held_of_allEnded ended
  have goal := h.drainGoal_eq small
  have all : p.collected = d := by rw [collected, drain]; rfl
  refine drained_iff.mpr ⟨d, drain, ?_⟩
  -- As long as permits are missing none is free, and nobody else has any.
  by_cases short : d < p.drainGoal
  · have free := spent short
    omega
  · exact Nat.le_of_not_lt short

theorem drained_collect_iff (h : p.Balanced limit 0) (small : limit ≤ greatestDrain)
    (stopping : p.lifecycle = .stopping) : p.collect.drained = true ↔ p.allEnded = true ∧ p.pending = 0 := by
  have pollers : p.collect.pollers = p.pollers := by
    unfold Pool.collect
    split <;> rfl
  have pending : p.collect.pending = p.pending := by
    rw [Pool.pending, count, (Rests.collect p).dispatches]
    rfl
  constructor
  · intro drained
    have finished := h.collect.of_drained small drained
    rwa [allEnded, pollers, pending] at finished
  · rintro ⟨ended, none⟩
    obtain ⟨d, drain⟩ := exists_drain_collect stopping ended
    exact h.collect.drained_of_drain small drain (pending.trans none)

end Balanced

theorem stopAnswer_eq_ok {timeout waited : Span} : p.stopAnswer timeout waited = some (.ok ()) ↔ p.drained = true := by
  unfold stopAnswer
  split
  · exact iff_of_true rfl ‹_›
  · split <;> exact iff_of_false nofun ‹_›

end

/-- From the signal on no poller asks the store for another task. When a stop tells that all has ended, all pollers have,
    each task that the pool ever claimed has been resolved, and no handler is in flight. A stop that is waited for tells so
    as soon as all pollers have ended and no dispatch is pending, and that its time is up if this comes first. -/
theorem stop_drains {ε : Type} {n : Nat} {p q : Pool} {front back : List Step} {stop : Step}
    (timeout waited : Span) (made : (create n : Outcome ε Pool) = .ok p) (small : n ≤ greatestDrain) (run : Run p (front ++ stop :: back) q)
    (asked : stop.event = .stop) (running : stop.before.lifecycle = .running)
    (whole : ∀ step ∈ front ++ stop :: back, step.crashes = false) :
    (∀ step ∈ back, ∀ i pattern, .claim i pattern ∉ step.requests) ∧
    (q.stopAnswer timeout waited = some (.ok ()) →
      q.allEnded = true ∧ q.tally.inFlight = 0 ∧
      ∀ j i task, (claims (front ++ stop :: back))[j]? = some (i, task) →
        Way i task .done (history (front ++ stop :: back) j)) ∧
    ((∀ step ∈ back, step.event ≠ .leave) →
      q.collect.stopAnswer timeout waited =
        if q.allEnded = true ∧ q.pending = 0 then some (.ok ())
        else if timeout ≤ waited then some (.error (.shutdownTimeout timeout))
        else none) := by
  have balanced : q.Balanced (max 1 n) 0 := run.balanced (.of_create made)
  have small : max 1 n ≤ greatestDrain := Nat.max_le.mpr ⟨by decide, small⟩
  obtain ⟨-, behind⟩ := run.split
  have begun : stop.after.signalled = true ∧ stop.after.lifecycle = .stopping := by
    have after : stop.after = { stop.before with lifecycle := .stopping, signalled := true } := by
      simp [Step.after, asked, Pool.after, Pool.stop, running, orSame]
    rw [after]
    exact ⟨rfl, rfl⟩
  refine ⟨fun step member i pattern => ?_, fun ok => ?_, fun waits => ?_⟩
  · obtain ⟨between, rest, rfl⟩ := List.append_of_mem member
    obtain ⟨upTo, -⟩ := behind.split
    have signalled : step.before.signalled = true :=
      upTo.invariant (fun p => p.signalled = true) begun.1 fun step _ h => step.ages.signalled h
    exact no_claim signalled i pattern
  · obtain ⟨ended, none⟩ := balanced.of_drained small (stopAnswer_eq_ok.mp ok)
    have recorded : Recorded (front ++ stop :: back) q := .of_run run (dispatches_create made) whole
    have counted : q.Counted := run.counted (.of_create made) whole
    exact ⟨ended, counted.inFlight.trans (count_of_pending none rfl), fun j i task => recorded.way_done none⟩
  · have stopping : q.lifecycle = .stopping :=
      behind.invariant (fun p => p.lifecycle = .stopping) begun.2 fun step member h =>
        step.ages.stopping (waits step member) h
    simp only [stopAnswer, balanced.drained_collect_iff small stopping]

theorem stop_drains_overtaken :
    (∃ p front stop back q, (create 2 : Outcome Refusal Pool) = .ok p ∧ Run p (front ++ stop :: back) q ∧
      stop.event = .stop ∧ stop.before.lifecycle = .running ∧ (∀ step ∈ front ++ stop :: back, step.crashes = false) ∧
      (∀ step ∈ back, ∀ i pattern, .claim i pattern ∉ step.requests) ∧
      (claims (front ++ stop :: back))[0]? = some (0, plainTask) ∧
      q.stopAnswer ⟨5⟩ ⟨3⟩ = some (.ok ()) ∧ q.allEnded = true ∧ q.tally.inFlight = 0 ∧
      Way 0 plainTask .done (history (front ++ stop :: back) 0)) ∧
    ∃ p front stop back q, (create 2 : Outcome Refusal Pool) = .ok p ∧ Run p (front ++ stop :: back) q ∧
      stop.event = .stop ∧ (∀ step ∈ back, step.event ≠ .leave) ∧ q.allEnded = true ∧ q.pending = 1 ∧
      q.collect.stopAnswer ⟨5⟩ ⟨5⟩ = some (.error (.shutdownTimeout ⟨5⟩)) := by
  let p : Pool := { limit := 2, free := 2 }
  let stop : Step := ⟨.stop, p.afterAll Event.underWay⟩
  have made : (create 2 : Outcome Refusal Pool) = .ok p := rfl
  have small : 2 ≤ greatestDrain := by decide
  have run (events : List Event) :
      Run p (steps p Event.underWay ++ stop :: steps stop.after events) (stop.after.afterAll events) :=
    .of_events_around p Event.underWay .stop events
  constructor
  · let events : List Event := Event.overtaken plainTask ++ [.handled 0 (.crashed none), .resolved 0 true]
    have whole : ∀ step ∈ steps p Event.underWay ++ stop :: steps stop.after events, step.crashes = false := by decide
    have drained : (stop.after.afterAll events).drained = true := by decide
    have claimed : (claims (steps p Event.underWay ++ stop :: steps stop.after events))[0]? = some (0, plainTask) := by
      decide
    obtain ⟨silent, ok, -⟩ := stop_drains ⟨5⟩ ⟨3⟩ made small (run events) rfl (by decide) whole
    obtain ⟨ended, inFlight, ways⟩ := ok (stopAnswer_eq_ok.mpr drained)
    exact ⟨p, _, stop, _, _, made, run events, rfl, by decide, whole, silent, claimed, stopAnswer_eq_ok.mpr drained, ended,
      inFlight, ways 0 0 plainTask claimed⟩
  · let events : List Event := Event.overtaken plainTask
    have whole : ∀ step ∈ steps p Event.underWay ++ stop :: steps stop.after events, step.crashes = false := by decide
    have waits : ∀ step ∈ steps stop.after events, step.event ≠ .leave := by decide
    have pending : (stop.after.afterAll events).pending = 1 := by decide
    obtain ⟨-, -, answer⟩ := stop_drains ⟨5⟩ ⟨5⟩ made small (run events) rfl (by decide) whole
    refine ⟨p, _, stop, _, _, made, run events, rfl, waits, by decide, pending, ?_⟩
    have late : (⟨5⟩ : Span) ≤ ⟨5⟩ := Nat.le_refl 5
    have unfinished : ¬((stop.after.afterAll events).allEnded = true ∧ (stop.after.afterAll events).pending = 0) := by
      rw [pending]
      exact fun finished => Nat.one_ne_zero finished.2
    rw [answer waits, if_neg unfinished, if_pos late]

end Pool
end DurableQueue
