import DurableQueue.Background

/-! What happens to a part that runs by itself: starts and stops, first steps, wakings, ends of passes and the returns
    of stops, in any order. `Does` says once what each of these does; that the runs of a part follow one another, and
    never overlap, is read off it. -/

namespace DurableQueue

namespace Run
variable {r : Run} {ending : PassEnding}

/-- What a change of a run does not undo: how it was started, that it has taken its first step, that it has been given
    the signal, and that it has ended. -/
structure Keeps (f : Run → Run) : Prop where
  careful : ∀ r, (f r).careful = r.careful
  begun : ∀ r, r.phase ≠ .starting → (f r).phase ≠ .starting
  signalled : ∀ r, r.signalled = true → (f r).signalled = true
  ended : ∀ r, r.phase = .ended → (f r).phase = .ended

theorem rest_phase (r : Run) : r.rest.phase = if r.signalled then .ended else .resting := rfl

theorem keeps_signal : Keeps signal := ⟨fun _ => rfl, fun _ h => h, fun _ _ => rfl, fun _ h => h⟩

theorem keeps_abort : Keeps abort := ⟨fun _ => rfl, fun _ _ => nofun, fun _ h => h, fun _ _ => rfl⟩

theorem wake_signalled (r : Run) : r.wake.signalled = r.signalled := by
  unfold wake
  split
  · split <;> rfl
  · rfl
  · rfl

theorem passed_signalled (r : Run) (ending : PassEnding) : (r.passed ending).signalled = r.signalled := by
  unfold passed
  split
  · split <;> rfl
  · rfl

theorem keeps_wake : Keeps wake where
  careful r := by
    unfold wake
    split
    · split <;> rfl
    · rfl
    · rfl
  begun r h := by
    cases phase : r.phase with
    | starting => exact absurd phase h
    | passing => simp [wake, phase]
    | resting => cases signalled : r.signalled <;> simp [wake, phase, signalled]
    | ended => simp [wake, phase]
  signalled r h := by rw [wake_signalled, h]
  ended r h := by
    rw [wake, h]
    exact h

theorem keeps_passed (ending : PassEnding) : Keeps (·.passed ending) where
  careful r := by
    dsimp only [passed]
    split
    · split <;> rfl
    · rfl
  begun r h := by
    cases phase : r.phase with
    | starting => exact absurd phase h
    | passing => cases signalled : r.signalled <;> cases ending <;> simp [passed, rest, phase, signalled]
    | resting => simp [passed, phase]
    | ended => simp [passed, phase]
  signalled r h := by rw [passed_signalled, h]
  ended r h := by
    dsimp only [passed]
    rw [h]
    exact h

/-- A run begins a pass where it takes its first step and does not rest first, or wakes up without the signal. -/
theorem wake_passing_iff : r.phase ≠ .passing ∧ r.wake.phase = .passing ↔
    r.phase = .starting ∧ r.careful = false ∨ r.phase = .resting ∧ r.signalled = false := by
  cases phase : r.phase <;> cases careful : r.careful <;> cases signalled : r.signalled <;>
    simp [wake, rest, phase, careful, signalled]

end Run

namespace Background

/-- An event, and the part that it happens to. -/
structure Step where
  event : Event
  before : Background

namespace Step

/-- The part after the event. -/
def after (step : Step) : Background := step.before.after step.event

/-- The run that begins a pass. -/
def begins (step : Step) : Option Nat := step.before.begins step.event

/-- A start that is accepted. -/
def Starts (step : Step) : Prop :=
  step.event = .start ∧ step.before.awaited = none ∧ step.before.start.isOk = true

/-- A stop that is accepted: it gives the signal and waits. -/
def Stops (step : Step) : Prop :=
  step.event = .stop ∧ step.before.awaited = none ∧ step.before.stop.isOk = true

end Step

/-- Events one after the other, with the parts that they happen to. -/
def steps : Background → List Event → List Step
  | _, [] => []
  | b, e :: rest => ⟨e, b⟩ :: steps (b.after e) rest

/-- The part after events one after the other. -/
def afterAll (b : Background) (events : List Event) : Background := events.foldl after b

section
variable {b : Background} {e : Event} {events : List Event} {front back : List Step} {step : Step} {k : Nat}

theorem steps_split (h : steps b events = front ++ step :: back) :
    ∃ before later, events = before ++ step.event :: later ∧ step.before = b.afterAll before ∧
      back = steps step.after later := by
  induction front generalizing b events with
  | nil =>
    cases events with
    | nil => cases h
    | cons e rest =>
      obtain ⟨rfl, rfl⟩ := List.cons.inj h
      exact ⟨[], rest, rfl, rfl, rfl⟩
  | cons first front ih =>
    cases events with
    | nil => cases h
    | cons e rest =>
      obtain ⟨before, later, rfl, found, rfl⟩ := ih (List.cons.inj h).2
      exact ⟨e :: before, later, rfl, found, rfl⟩

theorem before_of_mem_steps (h : step ∈ steps b events) : ∃ before, step.before = b.afterAll before := by
  obtain ⟨front, back, split⟩ := List.append_of_mem h
  obtain ⟨before, -, -, found, -⟩ := steps_split split
  exact ⟨before, found⟩

/-- What holds at the start and is kept by all that can happen holds at each point. -/
theorem afterAll_invariant (P : Background → Prop) (keep : ∀ b e, P b → P (b.after e)) (start : P b)
    (events : List Event) : P (b.afterAll events) := by
  induction events generalizing b with
  | nil => exact start
  | cons e rest ih => exact ih (keep b e start)

theorem invariant_of_mem_steps (P : Background → Prop) (keep : ∀ b e, P b → P (b.after e)) (start : P b)
    (h : step ∈ steps b events) : P step.before := by
  obtain ⟨before, found⟩ := before_of_mem_steps h
  exact found ▸ afterAll_invariant P keep start before

/-! ### What can happen -/

/-- What an event does to a part. -/
inductive Does (b : Background) : Event → Background → Prop where
  /-- A call is refused or cannot be made, or there is no stop to return. -/
  | nothing (e : Event) (starts : ¬Step.Starts ⟨e, b⟩) (stops : ¬Step.Stops ⟨e, b⟩) : Does b e b
  | started (free : b.awaited = none) (idle : b.running = false) :
      Does b .start { b with running := true, runs := b.runs ++ [{ careful := b.careful }] }
  | stopping (free : b.awaited = none) (running : b.running = true) :
      Does b .stop { b.change b.latest Run.signal with running := false, awaited := some b.latest }
  | woken (k : Nat) : Does b (.wake k) (b.change k Run.wake)
  | passed (k : Nat) (ending : PassEnding) : Does b (.passed k ending) (b.change k (·.passed ending))
  | left (k : Nat) (awaited : b.awaited = some k) : Does b .leave { b.change k Run.abort with awaited := none }

theorem start_of_running (running : b.running = true) : b.start = .error (.alreadyRunning b.name) := if_pos running

theorem start_of_idle (idle : b.running = false) :
    b.start = .ok { b with running := true, runs := b.runs ++ [{ careful := b.careful }] } :=
  if_neg (Bool.eq_false_iff.mp idle)

theorem stop_of_running (running : b.running = true) :
    b.stop = .ok { b.change b.latest Run.signal with running := false, awaited := some b.latest } := if_pos running

theorem stop_of_idle (idle : b.running = false) : b.stop = .error (.notRunning b.name) :=
  if_neg (Bool.eq_false_iff.mp idle)

theorem after_start (free : b.awaited = none) (idle : b.running = false) :
    b.after .start = { b with running := true, runs := b.runs ++ [{ careful := b.careful }] } := by
  simp [after, called, free, start_of_idle idle]

theorem after_stop (free : b.awaited = none) (running : b.running = true) :
    b.after .stop = { b.change b.latest Run.signal with running := false, awaited := some b.latest } := by
  simp [after, called, free, stop_of_running running]

theorem after_leave (awaited : b.awaited = some k) :
    b.after .leave = { b.change k Run.abort with awaited := none } := by
  simp [after, leave, awaited]

theorem Step.starts_iff : step.Starts ↔
    step.event = .start ∧ step.before.awaited = none ∧ step.before.running = false := by
  unfold Starts
  cases running : step.before.running with
  | true => simp [start_of_running running, Except.isOk, Except.toBool]
  | false => simp [start_of_idle running, Except.isOk, Except.toBool]

theorem Step.stops_iff : step.Stops ↔
    step.event = .stop ∧ step.before.awaited = none ∧ step.before.running = true := by
  unfold Stops
  cases running : step.before.running with
  | true => simp [stop_of_running running, Except.isOk, Except.toBool]
  | false => simp [stop_of_idle running, Except.isOk, Except.toBool]

theorem does (b : Background) (e : Event) : Does b e (b.after e) := by
  have nothing : ∀ e, b.after e = b → ¬Step.Starts ⟨e, b⟩ → ¬Step.Stops ⟨e, b⟩ → Does b e (b.after e) :=
    fun e same starts stops => by
      rw [same]
      exact .nothing e starts stops
  cases e with
  | start =>
    have stops : ¬Step.Stops ⟨.start, b⟩ := by simp [Step.Stops]
    cases free : b.awaited with
    | some k => exact nothing .start (by simp [after, called, free]) (by simp [Step.Starts, free]) stops
    | none =>
      cases running : b.running with
      | true =>
        have same : b.after .start = b := by simp [after, called, free, start_of_running running]
        exact nothing .start same (by simp [Step.starts_iff, running]) stops
      | false =>
        rw [after_start free running]
        exact .started free running
  | stop =>
    have starts : ¬Step.Starts ⟨.stop, b⟩ := by simp [Step.Starts]
    cases free : b.awaited with
    | some k => exact nothing .stop (by simp [after, called, free]) starts (by simp [Step.Stops, free])
    | none =>
      cases running : b.running with
      | true =>
        rw [after_stop free running]
        exact .stopping free running
      | false =>
        have same : b.after .stop = b := by simp [after, called, free, stop_of_idle running]
        exact nothing .stop same starts (by simp [Step.stops_iff, running])
  | wake k => exact .woken k
  | passed k ending => exact .passed k ending
  | leave =>
    cases awaited : b.awaited with
    | none => exact nothing .leave (by simp [after, leave, awaited]) (by simp [Step.Starts]) (by simp [Step.Stops])
    | some k =>
      rw [after_leave awaited]
      exact .left k awaited

/-! ### Single runs -/

variable {f : Run → Run} {j : Nat} {r r' : Run}

theorem getElem?_change (b : Background) (k : Nat) (f : Run → Run) (j : Nat) :
    (b.change k f).runs[j]? = (b.runs[j]?).map fun r => if k = j then f r else r :=
  List.getElem?_modify f k b.runs j

theorem getElem?_change_self (b : Background) (k : Nat) (f : Run → Run) :
    (b.change k f).runs[k]? = (b.runs[k]?).map f := by
  simp only [getElem?_change, if_true]

theorem exists_of_change (h : (b.change k f).runs[j]? = some r') :
    ∃ r, b.runs[j]? = some r ∧ r' = if k = j then f r else r := by
  rw [getElem?_change] at h
  obtain ⟨r, found, rfl⟩ := Option.map_eq_some_iff.mp h
  exact ⟨r, found, rfl⟩

theorem length_change (b : Background) (k : Nat) (f : Run → Run) : (b.change k f).runs.length = b.runs.length :=
  List.length_modify f b.runs k

theorem phaseAt_of_getElem? (h : b.runs[k]? = some r) : b.phaseAt k = r.phase := by
  rw [phaseAt, h]
  rfl

/-- What makes a run begin a pass. -/
theorem begins_iff : b.begins e = some k ↔ e = .wake k ∧ ∃ r, b.runs[k]? = some r ∧
    (r.phase = .starting ∧ r.careful = false ∨ r.phase = .resting ∧ r.signalled = false) := by
  cases e with
  | wake j =>
    have woken : (b.after (.wake j)).runs[j]? = (b.runs[j]?).map Run.wake := getElem?_change_self b j Run.wake
    cases found : b.runs[j]? with
    | none =>
      have before : b.phaseAt j = .ended := by rw [phaseAt, found]; rfl
      have after : (b.after (.wake j)).phaseAt j = .ended := by rw [phaseAt, woken, found]; rfl
      constructor
      · intro h
        rw [begins, before, after, if_neg (by simp)] at h
        cases h
      · rintro ⟨⟨⟩, r, found', -⟩
        cases found.symm.trans found'
    | some r =>
      have before : b.phaseAt j = r.phase := phaseAt_of_getElem? found
      have after : (b.after (.wake j)).phaseAt j = r.wake.phase :=
        phaseAt_of_getElem? (by rw [woken, found, Option.map_some])
      have turn : b.begins (.wake j) = if r.phase ≠ .passing ∧ r.wake.phase = .passing then some j else none := by
        rw [begins, before, after]
      rw [turn]
      constructor
      · intro h
        split at h
        · next turns =>
          cases h
          exact ⟨rfl, r, found, Run.wake_passing_iff.mp turns⟩
        · cases h
      · rintro ⟨⟨⟩, r', found', turns⟩
        obtain rfl := Option.some.inj (found.symm.trans found')
        exact if_pos (Run.wake_passing_iff.mpr turns)
  | _ => simp [begins]

/-- What no change takes from a run, nothing that happens to its part takes from it. -/
theorem kept_after {P : Run → Prop} (kept : ∀ {f r}, Run.Keeps f → P r → P (f r)) (e : Event)
    (h : ∃ r, b.runs[k]? = some r ∧ P r) : ∃ r, (b.after e).runs[k]? = some r ∧ P r := by
  obtain ⟨r, found, hr⟩ := h
  have changed : ∀ j {f}, Run.Keeps f → ∃ r, (b.change j f).runs[k]? = some r ∧ P r := fun j f keeps => by
    refine ⟨if j = k then f r else r, by rw [getElem?_change, found, Option.map_some], ?_⟩
    split
    · exact kept keeps hr
    · exact hr
  have does := b.does e
  generalize b.after e = c at does ⊢
  cases does with
  | nothing => exact ⟨r, found, hr⟩
  | started =>
    have within : k < b.runs.length := (List.getElem?_eq_some_iff.mp found).1
    exact ⟨r, (List.getElem?_append_left within).trans found, hr⟩
  | stopping => exact changed b.latest Run.keeps_signal
  | woken j => exact changed j Run.keeps_wake
  | passed j ending => exact changed j (Run.keeps_passed ending)
  | left j => exact changed j Run.keeps_abort

/-! ### One run after the other -/

/-- The runs of a part are alike, and all but the latest have ended. -/
structure Sequential (b : Background) : Prop where
  careful : ∀ (j : Nat) (r : Run), b.runs[j]? = some r → r.careful = b.careful
  older : ∀ (j : Nat) (r : Run), b.runs[j]? = some r → j + 1 < b.runs.length → r.phase = .ended

theorem Sequential.change {f : Run → Run} (sequential : b.Sequential) (k : Nat) (keeps : Run.Keeps f) :
    (b.change k f).Sequential where
  careful j r' h := by
    obtain ⟨r, found, rfl⟩ := exists_of_change h
    have same := sequential.careful j r found
    split
    · exact (keeps.careful r).trans same
    · exact same
  older j r' h before := by
    obtain ⟨r, found, rfl⟩ := exists_of_change h
    rw [length_change] at before
    have ended := sequential.older j r found before
    split
    · exact keeps.ended r ended
    · exact ended

/-- What holds of a part whatever happens to it: its latest run has not been given the signal as long as the part has
    not been stopped, and has ended when no stop waits for it any longer. -/
structure Orderly (b : Background) : Prop extends Sequential b where
  started : b.running = true → 0 < b.runs.length
  unsignalled : b.running = true → ∀ (j : Nat) (r : Run), b.runs[j]? = some r → j + 1 = b.runs.length →
    r.signalled = false
  awaits : ∀ k, b.awaited = some k → b.running = false ∧ k + 1 = b.runs.length
  idle : b.running = false → b.awaited = none → ∀ (j : Nat) (r : Run), b.runs[j]? = some r → r.phase = .ended

theorem orderly_new (name : String) (careful : Bool) : Orderly { name, careful } where
  careful := nofun
  older := nofun
  started := nofun
  unsignalled := nofun
  awaits := nofun
  idle := by simp

theorem Orderly.change {f : Run → Run} (orderly : b.Orderly) (k : Nat) (keeps : Run.Keeps f)
    (silent : ∀ r, (f r).signalled = r.signalled) : (b.change k f).Orderly where
  toSequential := orderly.toSequential.change k keeps
  started running := by
    rw [length_change]
    exact orderly.started running
  unsignalled running j r' h last := by
    obtain ⟨r, found, rfl⟩ := exists_of_change h
    rw [length_change] at last
    have quiet := orderly.unsignalled running j r found last
    split
    · exact (silent r).trans quiet
    · exact quiet
  awaits := by
    rw [length_change]
    exact orderly.awaits
  idle stopped free j r' h := by
    obtain ⟨r, found, rfl⟩ := exists_of_change h
    have ended := orderly.idle stopped free j r found
    split
    · exact keeps.ended r ended
    · exact ended

theorem Orderly.start (orderly : b.Orderly) (free : b.awaited = none) (stopped : b.running = false) :
    Orderly { b with running := true, runs := b.runs ++ [{ careful := b.careful }] } := by
  have cases : ∀ (j : Nat) (r : Run), (b.runs ++ [{ careful := b.careful }])[j]? = some r →
      b.runs[j]? = some r ∨ j = b.runs.length ∧ r = { careful := b.careful } := by
    intro j r h
    rw [List.getElem?_append] at h
    split at h
    · exact Or.inl h
    · next past =>
      rw [List.getElem?_singleton] at h
      split at h
      · next first => exact Or.inr ⟨by omega, (Option.some.inj h).symm⟩
      · cases h
  have length : (b.runs ++ [({ careful := b.careful } : Run)]).length = b.runs.length + 1 := List.length_append
  exact {
    careful := fun j r h => by
      rcases cases j r h with found | ⟨-, rfl⟩
      · exact orderly.careful j r found
      · rfl
    older := fun j r h before => by
      rcases cases j r h with found | ⟨rfl, -⟩
      · exact orderly.idle stopped free j r found
      · rw [length] at before
        omega
    started := fun _ => by
      rw [length]
      omega
    unsignalled := fun _ j r h last => by
      rcases cases j r h with found | ⟨-, rfl⟩
      · have within : j < b.runs.length := (List.getElem?_eq_some_iff.mp found).1
        rw [length] at last
        omega
      · rfl
    awaits := fun k awaited => absurd (free.symm.trans awaited) nofun
    idle := nofun }

theorem Orderly.stop (orderly : b.Orderly) (running : b.running = true) :
    Orderly { b.change b.latest Run.signal with running := false, awaited := some b.latest } where
  toSequential :=
    have sequential := orderly.toSequential.change b.latest Run.keeps_signal
    ⟨sequential.careful, sequential.older⟩
  started := nofun
  unsignalled := nofun
  awaits k awaited := by
    have some := orderly.started running
    have last : b.latest + 1 = b.runs.length := Nat.sub_add_cancel some
    obtain rfl := Option.some.inj awaited
    exact ⟨rfl, last.trans (length_change b b.latest Run.signal).symm⟩
  idle := nofun

theorem Orderly.leave (orderly : b.Orderly) (awaited : b.awaited = some k) :
    Orderly { b.change k Run.abort with awaited := none } := by
  have sequential := orderly.toSequential.change k Run.keeps_abort
  obtain ⟨stopped, last⟩ := orderly.awaits k awaited
  exact {
    careful := sequential.careful
    older := sequential.older
    started := fun running => absurd (stopped.symm.trans running) nofun
    unsignalled := fun running => absurd (stopped.symm.trans running) nofun
    awaits := nofun
    idle := fun _ _ j r' h => by
      obtain ⟨r, found, rfl⟩ := exists_of_change h
      split
      · rfl
      · next other =>
        -- The run is not the one that is aborted, so it is older.
        have within : j < b.runs.length := (List.getElem?_eq_some_iff.mp found).1
        exact orderly.older j r found (by omega) }

theorem Orderly.after (orderly : b.Orderly) (e : Event) : (b.after e).Orderly := by
  have does := b.does e
  generalize b.after e = c at does ⊢
  cases does with
  | nothing => exact orderly
  | started free idle => exact orderly.start free idle
  | stopping _ running => exact orderly.stop running
  | woken k => exact orderly.change k Run.keeps_wake Run.wake_signalled
  | passed k ending => exact orderly.change k (Run.keeps_passed ending) (Run.passed_signalled · ending)
  | left k awaited => exact orderly.leave awaited

/-- The latest run of a part that has been started is there. -/
theorem Orderly.latest_lt (orderly : b.Orderly) (running : b.running = true) : b.latest < b.runs.length := by
  have some := orderly.started running
  unfold latest
  omega

end
end Background
end DurableQueue
