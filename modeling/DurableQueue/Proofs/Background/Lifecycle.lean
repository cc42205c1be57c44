import DurableQueue.Proofs.Background.Steps
import DurableQueue.Scheduler
import Mathlib.Tactic.Tauto

/-! Starting and stopping. Whether a part can be started or stopped is told by the calls before alone: starts and stops
    that are accepted take turns. A run does not go on after its stop has returned, in time or not, and a start comes
    only after that, so that no two runs of a part ever make passes in turn. -/

namespace DurableQueue
namespace Background

/-- A start has been accepted, and no stop since. -/
def Open (es : List Step) : Prop :=
  ∃ front step back, es = front ++ step :: back ∧ step.Starts ∧ ∀ later ∈ back, ¬later.Stops

section
variable {b : Background} {e : Event} {events : List Event} {es : List Step} {step : Step} {k : Nat}

theorem open_cons_iff : Open (step :: es) ↔ Open es ∨ step.Starts ∧ ∀ later ∈ es, ¬later.Stops := by
  constructor
  · rintro ⟨front, start, back, whole, starts, kept⟩
    cases front with
    | nil =>
      obtain ⟨rfl, rfl⟩ := List.cons.inj whole
      exact Or.inr ⟨starts, kept⟩
    | cons first front => exact Or.inl ⟨front, start, back, (List.cons.inj whole).2, starts, kept⟩
  · rintro (⟨front, start, back, rfl, starts, kept⟩ | ⟨starts, kept⟩)
    · exact ⟨step :: front, start, back, rfl, starts, kept⟩
    · exact ⟨[], step, es, rfl, starts, kept⟩

theorem running_after (b : Background) (e : Event) :
    (b.after e).running = true ↔ Step.Starts ⟨e, b⟩ ∨ b.running = true ∧ ¬Step.Stops ⟨e, b⟩ := by
  have does := b.does e
  generalize b.after e = c at does ⊢
  cases does with
  | nothing e starts stops => simp [starts, stops]
  | started free idle => simp [Step.starts_iff, free, idle]
  | stopping free running => simp [Step.Starts, Step.stops_iff, free, running]
  | woken k => simp [Step.Starts, Step.Stops, change]
  | passed k ending => simp [Step.Starts, Step.Stops, change]
  | left k awaited => simp [Step.Starts, Step.Stops, change]

/-- A part runs if it has been started and not stopped since, or ran from the beginning and was not stopped. -/
theorem running_afterAll (b : Background) (events : List Event) :
    (b.afterAll events).running = true ↔
      Open (steps b events) ∨ b.running = true ∧ ∀ step ∈ steps b events, ¬step.Stops := by
  induction events generalizing b with
  | nil =>
    have closed : ¬Open [] := by
      rintro ⟨front, step, back, whole, -⟩
      simp at whole
    simp [afterAll, steps, closed]
  | cons e rest ih =>
    have behind := ih (b.after e)
    have first := running_after b e
    have whole : (b.afterAll (e :: rest)).running = ((b.after e).afterAll rest).running := rfl
    rw [whole, behind, first, steps, open_cons_iff, List.forall_mem_cons]
    tauto

/-! ### Runs that have been stopped -/

/-- A run has ended. -/
def Gone (b : Background) (k : Nat) : Prop := ∃ r, b.runs[k]? = some r ∧ r.phase = .ended

theorem Gone.after (gone : b.Gone k) (e : Event) : (b.after e).Gone k :=
  kept_after (P := (·.phase = .ended)) (fun keeps => keeps.ended _) e gone

theorem Gone.begins_ne (gone : b.Gone k) (e : Event) : b.begins e ≠ some k := by
  intro begins
  obtain ⟨r, found, ended⟩ := gone
  obtain ⟨-, r', found', turns⟩ := begins_iff.mp begins
  obtain rfl := Option.some.inj (found.symm.trans found')
  rw [ended] at turns
  simp at turns

/-- A stop waits for a run, or the run has ended. -/
def Ending (b : Background) (k : Nat) : Prop := b.awaited = some k ∧ k < b.runs.length ∨ b.Gone k

theorem gone_leave (awaited : b.awaited = some k) (within : k < b.runs.length) : (b.after .leave).Gone k := by
  have aborted : (b.change k Run.abort).runs[k]? = some b.runs[k].abort := by
    rw [getElem?_change_self, List.getElem?_eq_getElem within, Option.map_some]
  rw [after_leave awaited]
  exact ⟨_, aborted, rfl⟩

/-- When a stop returns, the run that it waited for has ended. -/
theorem Ending.leave (ending : b.Ending k) : (b.after .leave).Gone k := by
  rcases ending with ⟨awaited, within⟩ | gone
  · exact gone_leave awaited within
  · exact gone.after .leave

theorem Ending.after (ending : b.Ending k) (e : Event) : (b.after e).Ending k := by
  rcases ending with ⟨awaited, within⟩ | gone
  · by_cases left : e = .leave
    · rw [left]
      exact Or.inr (gone_leave awaited within)
    · -- Nothing but its return ends the waiting of a stop.
      have does := b.does e
      generalize b.after e = c at does ⊢
      cases does with
      | nothing => exact Or.inl ⟨awaited, within⟩
      | started free => cases awaited.symm.trans free
      | stopping free => cases awaited.symm.trans free
      | woken j => exact Or.inl ⟨awaited, (length_change b j _).symm ▸ within⟩
      | passed j => exact Or.inl ⟨awaited, (length_change b j _).symm ▸ within⟩
      | left => exact absurd rfl left
  · exact Or.inr (gone.after e)

theorem Step.Stops.ending (stops : step.Stops) (orderly : step.before.Orderly) :
    step.after.Ending step.before.latest := by
  obtain ⟨event, free, running⟩ := Step.stops_iff.mp stops
  have within := orderly.latest_lt running
  rw [Step.after, event, after_stop free running]
  exact Or.inl ⟨rfl, (length_change step.before step.before.latest Run.signal).symm ▸ within⟩

/-- Behind the return of a stop its run has ended for good. -/
theorem gone_behind {front mid back : List Step} {stop left : Step} (orderly : b.Orderly)
    (whole : steps b events = front ++ stop :: (mid ++ left :: back)) (stops : stop.Stops)
    (returned : left.event = .leave) : ∀ later ∈ back, later.before.Gone stop.before.latest := by
  intro later member
  have found : stop ∈ steps b events := by
    rw [whole]
    exact List.mem_append_right _ List.mem_cons_self
  have stopped := stops.ending (invariant_of_mem_steps Orderly (fun _ e h => h.after e) orderly found)
  obtain ⟨_, _, -, -, behind⟩ := steps_split whole
  obtain ⟨between, rest, -, waits, last⟩ := steps_split behind.symm
  have ending : left.before.Ending stop.before.latest :=
    waits ▸ afterAll_invariant (·.Ending stop.before.latest) (fun _ e h => h.after e) stopped between
  have gone : left.after.Gone stop.before.latest := by
    rw [Step.after, returned]
    exact ending.leave
  rw [last] at member
  exact invariant_of_mem_steps (·.Gone stop.before.latest) (fun _ e h => h.after e) gone member

theorem name_after (b : Background) (e : Event) : (b.after e).name = b.name := by
  have does := b.does e
  generalize b.after e = c at does ⊢
  cases does <;> rfl

/-! ### Passes -/

/-- A run that goes on is the latest. -/
theorem Orderly.latest_of {r : Run} (orderly : b.Orderly) (found : b.runs[k]? = some r) (alive : r.phase ≠ .ended) :
    k + 1 = b.runs.length := by
  have within : k < b.runs.length := (List.getElem?_eq_some_iff.mp found).1
  rcases Nat.lt_or_eq_of_le (Nat.succ_le_of_lt within) with before | last
  · exact absurd (orderly.older k r found before) alive
  · exact last

theorem Orderly.begins_latest (orderly : b.Orderly) (begins : b.begins e = some k) : k + 1 = b.runs.length := by
  obtain ⟨-, r, found, ⟨starting, -⟩ | ⟨resting, -⟩⟩ := begins_iff.mp begins
  · exact orderly.latest_of found (by rw [starting]; nofun)
  · exact orderly.latest_of found (by rw [resting]; nofun)

/-- A part that has not been stopped goes on after a pass that was refused. -/
theorem Orderly.begins_again (orderly : b.Orderly) (running : b.running = true) (passing : b.phaseAt k = .passing) :
    (b.after (.passed k .faulted)).begins (.wake k) = some k := by
  obtain ⟨r, found, phase⟩ : ∃ r, b.runs[k]? = some r ∧ r.phase = .passing := by
    unfold phaseAt at passing
    cases found : b.runs[k]? with
    | none => rw [found] at passing; cases passing
    | some r => rw [found] at passing; exact ⟨r, rfl, passing⟩
  have last := orderly.latest_of found (by rw [phase]; nofun)
  have quiet := orderly.unsignalled running k r found last
  have next : (b.after (.passed k .faulted)).runs[k]? = some r.rest := by
    have modified : (b.after (.passed k .faulted)).runs[k]? = _ := getElem?_change_self b k (·.passed .faulted)
    rw [modified, found, Option.map_some]
    simp [Run.passed, phase]
  exact begins_iff.mpr ⟨rfl, r.rest, next, Or.inr ⟨by rw [Run.rest_phase, quiet]; rfl, quiet⟩⟩

/-- However starts, stops, timers, passes and the returns of stops follow one another: a start is accepted exactly if
    each accepted start before it has been followed by an accepted stop, and otherwise it is refused and changes
    nothing; a stop is refused exactly if there is no such start. When the stop of a run has returned, that run begins
    no further pass, and each pass is begun by the latest run. A pass that is refused ends no run. -/
theorem starts_and_stops (name : String) (careful : Bool) (events : List Event) :
    let b : Background := { name, careful }
    let es := steps b events
    let p := b.afterAll events
    (p.start.isOk = true ↔ ¬Open es) ∧
    (Open es → p.start = .error (.alreadyRunning name) ∧ p.after .start = p) ∧
    (p.stop = .error (.notRunning name) ↔ ¬Open es) ∧
    (∀ timeout waited answer, p.stopAnswer timeout waited = some answer →
      answer = .ok () ∨ answer = .error (.stopTimeout name timeout)) ∧
    (∀ front stop mid left back, es = front ++ stop :: (mid ++ left :: back) → stop.Stops → left.event = .leave →
      ∀ later ∈ back, later.begins ≠ some stop.before.latest) ∧
    (∀ step ∈ es, ∀ k, step.begins = some k → k + 1 = step.before.runs.length) ∧
    ∀ k, p.phaseAt k = .passing → p.after (.passed k .faulted) = p.after (.passed k .done) ∧
      (p.running = true → (p.after (.passed k .faulted)).begins (.wake k) = some k) := by
  intro b es p
  have orderly : p.Orderly := afterAll_invariant Orderly (fun _ e h => h.after e) (orderly_new name careful) events
  have named : p.name = name := afterAll_invariant (·.name = name) (fun b e h => (name_after b e).trans h) rfl events
  have running : p.running = true ↔ Open es := by
    have whole := running_afterAll b events
    have idle : ¬b.running = true := nofun
    rw [whole]
    tauto
  refine ⟨?_, ?_, ?_, ?_, ?_, ?_, ?_⟩
  · rw [← running]
    cases h : p.running with
    | true => simp [start_of_running h, Except.isOk, Except.toBool]
    | false => simp [start_of_idle h, Except.isOk, Except.toBool]
  · intro opened
    have refused := start_of_running (running.mpr opened)
    rw [named] at refused
    refine ⟨refused, ?_⟩
    cases free : p.awaited <;> simp [Background.after, called, free, refused]
  · rw [← running]
    cases h : p.running with
    | true => simp [stop_of_running h]
    | false => simp [stop_of_idle h, named]
  · intro timeout waited answer told
    unfold stopAnswer at told
    split at told
    · cases told
    · split at told
      · exact Or.inl (Option.some.inj told).symm
      · split at told
        · exact Or.inr (named ▸ (Option.some.inj told).symm)
        · cases told
  · intro front stop mid left back whole stops returned later member
    exact (gone_behind (orderly_new name careful) whole stops returned later member).begins_ne later.event
  · intro step member k begins
    have orderly : step.before.Orderly :=
      invariant_of_mem_steps Orderly (fun _ e h => h.after e) (orderly_new name careful) member
    exact orderly.begins_latest begins
  · exact fun k passing => ⟨rfl, fun running => orderly.begins_again running passing⟩

/-- A part whose run makes a pass that is refused and another one, in which it is stopped for too long, and which is
    then started again. -/
def Event.restarted : List Event :=
  [.start, .wake 0, .start, .passed 0 .faulted, .wake 0, .stop, .leave, .start, .wake 1, .wake 0]

theorem starts_and_stops_restarted :
    (steps Reaper.background Event.restarted).filterMap Step.begins = [0, 0, 1] ∧
    Open (steps Reaper.background Event.restarted) ∧
    (Reaper.background.afterAll Event.restarted).start = .error (.alreadyRunning "reaper") ∧
    ∃ front stop left back, steps Reaper.background Event.restarted = front ++ stop :: ([] ++ left :: back) ∧
      stop.Stops ∧ stop.before.phaseAt 0 = .passing ∧
      left.before.stopAnswer ⟨5⟩ ⟨5⟩ = some (.error (.stopTimeout "reaper" ⟨5⟩)) ∧
      (∀ later ∈ back, later.begins ≠ some 0) ∧ ∃ later ∈ back, later.begins = some 1 := by
  let stop : Step := ⟨.stop, Reaper.background.afterAll (Event.restarted.take 5)⟩
  let left : Step := ⟨.leave, stop.after⟩
  let back : List Step := steps left.after (Event.restarted.drop 7)
  obtain ⟨-, refused, -, -, returned, -⟩ := starts_and_stops "reaper" false Event.restarted
  have running : (Reaper.background.afterAll Event.restarted).running = true := by decide
  have opened : Open (steps Reaper.background Event.restarted) :=
    ((running_afterAll Reaper.background Event.restarted).mp running).resolve_right fun h => absurd h.1 (by decide)
  have whole : steps Reaper.background Event.restarted =
      steps Reaper.background (Event.restarted.take 5) ++ stop :: ([] ++ left :: back) := rfl
  have stops : stop.Stops := ⟨rfl, rfl, rfl⟩
  refine ⟨by decide, opened, (refused opened).1, _, stop, left, back, whole, stops, by decide, rfl,
    returned _ stop [] left back whole stops rfl, ?_⟩
  exact ⟨⟨.wake 1, Reaper.background.afterAll (Event.restarted.take 8)⟩, List.mem_cons_of_mem _ List.mem_cons_self, rfl⟩

end
end Background
end DurableQueue
