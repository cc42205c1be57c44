import DurableQueue.Proofs.Background.Steps
import DurableQueue.Simulation.Caller

/-! The signal to stop. A run that rests before its first pass finds the signal wherever it is given. One that does not
    rest first misses it where it is given before the run has taken its first step, makes that one pass, and finds the
    signal after it. -/

namespace DurableQueue
namespace Background

section
variable {b : Background} {e : Event} {events : List Event} {front back : List Step} {stop : Step} {k : Nat}

/-- A run has been given the signal. -/
def Signalled (b : Background) (k : Nat) : Prop := ∃ r, b.runs[k]? = some r ∧ r.signalled = true

/-- A run has taken its first step. -/
def Begun (b : Background) (k : Nat) : Prop := ∃ r, b.runs[k]? = some r ∧ r.phase ≠ .starting

theorem Signalled.after (signalled : b.Signalled k) (e : Event) : (b.after e).Signalled k :=
  kept_after (P := (·.signalled = true)) (fun keeps => keeps.signalled _) e signalled

theorem Begun.after (begun : b.Begun k) (e : Event) : (b.after e).Begun k :=
  kept_after (P := (·.phase ≠ .starting)) (fun keeps => keeps.begun _) e begun

theorem careful_after (b : Background) (e : Event) : (b.after e).careful = b.careful := by
  have does := b.does e
  generalize b.after e = c at does ⊢
  cases does <;> rfl

theorem phaseAt_ne_starting_iff (within : k < b.runs.length) : b.phaseAt k ≠ .starting ↔ b.Begun k := by
  have found : b.runs[k]? = some b.runs[k] := List.getElem?_eq_getElem within
  rw [phaseAt_of_getElem? found, Begun, found]
  simp

/-- A run that has been given the signal begins a pass only as its first step, and only if it does not rest first. -/
theorem Signalled.begins_iff (signalled : b.Signalled k) (sequential : b.Sequential) :
    b.begins e = some k ↔ e = .wake k ∧ b.phaseAt k = .starting ∧ b.careful = false := by
  obtain ⟨r, found, given⟩ := signalled
  have same := sequential.careful k r found
  rw [Background.begins_iff, phaseAt_of_getElem? found, found]
  simp [given, same]

theorem Begun.begins_ne (begun : b.Begun k) (signalled : b.Signalled k) (sequential : b.Sequential) (e : Event) :
    b.begins e ≠ some k := by
  intro begins
  obtain ⟨r, found, moved⟩ := begun
  obtain ⟨-, starting, -⟩ := (signalled.begins_iff sequential).mp begins
  rw [phaseAt_of_getElem? found] at starting
  exact moved starting

theorem begun_of_begins (begins : b.begins e = some k) : (b.after e).Begun k := by
  obtain ⟨rfl, r, found, turns⟩ := Background.begins_iff.mp begins
  have passing := (Run.wake_passing_iff.mpr turns).2
  have woken : (b.after (.wake k)).runs[k]? = _ := getElem?_change_self b k Run.wake
  rw [found, Option.map_some] at woken
  exact ⟨r.wake, woken, by rw [passing]; nofun⟩

theorem Step.Stops.signalled (stops : stop.Stops) (orderly : stop.before.Orderly) :
    stop.after.Signalled stop.before.latest := by
  obtain ⟨event, free, running⟩ := Step.stops_iff.mp stops
  have given := getElem?_change_self stop.before stop.before.latest Run.signal
  rw [List.getElem?_eq_getElem (orderly.latest_lt running), Option.map_some] at given
  rw [Step.after, event, after_stop free running]
  exact ⟨_, given, rfl⟩

/-- Behind an accepted stop its run begins a pass exactly where it takes its first step and does not rest before, if the
    signal was given before that step. A run that rests first, or that had taken its first step, begins none, and any
    run begins at most one. -/
theorem begins_behind_stop_iff {name : String} {careful : Bool}
    (whole : steps { name, careful } events = front ++ stop :: back) (stops : stop.Stops) :
    (∀ later ∈ back, later.begins = some stop.before.latest ↔ later.event = .wake stop.before.latest ∧
      later.before.phaseAt stop.before.latest = .starting ∧ careful = false) ∧
    (careful = true ∨ stop.before.phaseAt stop.before.latest ≠ .starting →
      ∀ later ∈ back, later.begins ≠ some stop.before.latest) ∧
    ∀ mid first rest, back = mid ++ first :: rest → first.begins = some stop.before.latest →
      ∀ later ∈ rest, later.begins ≠ some stop.before.latest := by
  have member : stop ∈ steps { name, careful } events := by
    rw [whole]
    exact List.mem_append_right _ List.mem_cons_self
  have orderly : ∀ step ∈ steps { name, careful } events, step.before.Orderly := fun _ =>
    invariant_of_mem_steps Orderly (fun _ e h => h.after e) (orderly_new name careful)
  have given := stops.signalled (orderly stop member)
  obtain ⟨_, rest, -, -, behind⟩ := steps_split whole
  have among : ∀ later ∈ back, later ∈ steps { name, careful } events := fun later h => by
    rw [whole]
    exact List.mem_append_right _ (List.mem_cons_of_mem _ h)
  have same : ∀ later ∈ back, later.before.careful = careful := fun later h =>
    invariant_of_mem_steps (·.careful = careful) (fun b e h => (careful_after b e).trans h) rfl (among later h)
  have signalled : ∀ later ∈ back, later.before.Signalled stop.before.latest := fun later h =>
    invariant_of_mem_steps (·.Signalled stop.before.latest) (fun _ e h => h.after e) given (behind ▸ h)
  have turns : ∀ later ∈ back, later.begins = some stop.before.latest ↔ later.event = .wake stop.before.latest ∧
      later.before.phaseAt stop.before.latest = .starting ∧ careful = false := fun later h => by
    rw [← same later h]
    exact (signalled later h).begins_iff (orderly later (among later h)).toSequential
  -- A run that has taken its first step does not take it again.
  have silent : ∀ later ∈ back, later.before.Begun stop.before.latest → later.begins ≠ some stop.before.latest :=
    fun later h begun => begun.begins_ne (signalled later h) (orderly later (among later h)).toSequential later.event
  refine ⟨turns, fun found later h => ?_, fun mid first after split begins later h => ?_⟩
  · rcases found with careful | moved
    · intro begins
      obtain ⟨-, -, careless⟩ := (turns later h).mp begins
      cases careful.symm.trans careless
    · have within := (orderly stop member).latest_lt (Step.stops_iff.mp stops).2.2
      have begun : stop.after.Begun stop.before.latest := ((phaseAt_ne_starting_iff within).mp moved).after stop.event
      exact silent later h
        (invariant_of_mem_steps (·.Begun stop.before.latest) (fun _ e h => h.after e) begun (behind ▸ h))
  · obtain ⟨_, last, -, -, past⟩ := steps_split (behind.symm.trans split)
    have begun : first.after.Begun stop.before.latest := begun_of_begins begins
    have between : later ∈ back := by
      rw [split]
      exact List.mem_append_right _ (List.mem_cons_of_mem _ h)
    exact silent later between
      (invariant_of_mem_steps (·.Begun stop.before.latest) (fun _ e h => h.after e) begun (past ▸ h))

/-- A part that is stopped before its run has taken its first step. -/
def Event.hurried : List Event := [.start, .stop, .wake 0]

theorem begins_behind_stop_iff_hurried :
    (∃ front stop back, steps Scheduler.background Event.hurried = front ++ stop :: back ∧ stop.Stops ∧
      stop.before.phaseAt 0 = .starting ∧ ∀ later ∈ back, later.begins ≠ some 0) ∧
    ∃ front stop back, steps Reaper.background Event.hurried = front ++ stop :: back ∧ stop.Stops ∧
      ∃ later ∈ back, later.begins = some 0 := by
  constructor
  · let stop : Step := ⟨.stop, Scheduler.background.after .start⟩
    have whole : steps Scheduler.background Event.hurried =
        [⟨.start, Scheduler.background⟩] ++ stop :: steps stop.after [.wake 0] := rfl
    have stops : stop.Stops := ⟨rfl, rfl, rfl⟩
    exact ⟨_, stop, _, whole, stops, rfl, (begins_behind_stop_iff whole stops).2.1 (Or.inl rfl)⟩
  · let stop : Step := ⟨.stop, Reaper.background.after .start⟩
    have whole : steps Reaper.background Event.hurried =
        [⟨.start, Reaper.background⟩] ++ stop :: steps stop.after [.wake 0] := rfl
    have stops : stop.Stops := ⟨rfl, rfl, rfl⟩
    have member : ⟨.wake 0, stop.after⟩ ∈ steps stop.after [.wake 0] := List.mem_cons_self
    exact ⟨_, stop, _, whole, stops, _, member, ((begins_behind_stop_iff whole stops).1 _ member).mpr ⟨rfl, rfl, rfl⟩⟩

/-- A task that has been running since 1970. -/
def ancientTask : Task :=
  { Task.create (.made 0) (.of "a" []) .epoch with status := .running, lastAttempt := some .epoch }

/-- A reaper that has not been started, and a task that has been running for too long. -/
def overdue : Simulation where
  store := { tasks := Table.empty.put ancientTask }
  clock := ⟨1000, 0⟩
  keepers := [{ duty := .reap {}, background := Reaper.background }]

/-- A reaper that is stopped right after its start makes a pass all the same: the signal is given before its run has
    taken its first step, and the task is put back after that. -/
theorem reaper_begins_behind_stop :
    (∃ front stop back, steps Reaper.background Event.hurried = front ++ stop :: back ∧ stop.Stops ∧
      ∃ later ∈ back, later.begins = some stop.before.latest) ∧
    ((Simulation.startKeeper 0).run overdue).2.runPhase 0 0 = .starting ∧
    ((Simulation.startKeeper 0).run overdue).2.store.tasks.rows.map Task.status = [.running] ∧
    ((Simulation.stopKeeper 0).run ((Simulation.startKeeper 0).run overdue).2).2.store.tasks.rows.map Task.status =
      [.pending] := by
  refine ⟨⟨steps Reaper.background [.start], ⟨.stop, Reaper.background.after .start⟩, _, rfl, ⟨rfl, rfl, rfl⟩,
    _, List.mem_cons_self, rfl⟩, ?_⟩
  decide +kernel

end
end Background
end DurableQueue
