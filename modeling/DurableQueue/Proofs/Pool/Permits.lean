import DurableQueue.Proofs.Pool.Dispatches

/-! Where the permits of a pool are: free, with a poller, with a dispatch, or collected by a stop. No event makes a permit
    or loses one, whatever ends in which way, so as many claimed tasks as there are permits can be unresolved at a time.

    While a permit is on its way back it is in nobody's hands; `Balanced p n` says that `n` permits are. A poller in line
    has none, which is why the first in line can be given one. -/

namespace DurableQueue

/-- Whether a poller has a permit. -/
def PollerPhase.holds : PollerPhase → Bool
  | granted | claiming => true
  | _ => false

namespace Pool

/-- The permits that pollers have. -/
def held (p : Pool) : Nat := p.pollers.countP (·.phase.holds)

/-- The permits that a stop has collected. -/
def collected (p : Pool) : Nat := p.drain.getD 0

section
variable {p : Pool} {i k : Nat} {phase next : PollerPhase}

theorem phaseAt_enter (p : Pool) (i k : Nat) (next : PollerPhase) :
    (p.enter i next).phaseAt k = (p.phaseAt k).map fun phase => if i = k then next else phase := by
  unfold phaseAt enter
  rw [List.getElem?_modify]
  cases p.pollers[k]? with
  | none => rfl
  | some poller =>
    by_cases same : i = k
    · simp [same]
    · simp [same]

theorem held_enter (found : p.phaseAt i = some phase) (next : PollerPhase) :
    (p.enter i next).held + phase.holds.toNat = p.held + next.holds.toNat := by
  obtain ⟨poller, stored, rfl⟩ := Option.map_eq_some_iff.mp found
  exact countP_modify stored _ fun poller => poller.phase.holds

theorem allEnded_iff : p.allEnded = true ↔ ∀ i phase, p.phaseAt i = some phase → phase = .ended := by
  unfold allEnded phaseAt
  rw [List.all_eq_true]
  constructor
  · intro all i phase found
    obtain ⟨poller, stored, rfl⟩ := Option.map_eq_some_iff.mp found
    exact of_decide_eq_true (all poller (List.mem_of_getElem? stored))
  · intro all poller member
    obtain ⟨i, stored⟩ := List.mem_iff_getElem?.mp member
    exact decide_eq_true (all i _ (by rw [stored]; rfl))

end

/-- All permits are accounted for, so many of them in nobody's hands. -/
structure Balanced (limit : Nat) (p : Pool) (loose : Nat) : Prop where
  limit_eq : p.limit = limit
  total : p.free + p.held + p.pending + p.collected + loose = limit
  line_nodup : p.line.Nodup
  line_queued : ∀ i ∈ p.line, p.phaseAt i = some .queued
  /-- A stop collects when no poller can ask for a permit any more, and leaves none free that it needs. -/
  drains : ∀ n, p.drain = some n → p.lifecycle = .stopping ∧ p.allEnded = true ∧ n ≤ p.drainGoal ∧
    (n < p.drainGoal → p.free = 0)

namespace Balanced
variable {p : Pool} {limit loose i j : Nat}

theorem drain_eq_none {phase : PollerPhase} (h : p.Balanced limit loose) (found : p.phaseAt i = some phase)
    (active : phase ≠ .ended) : p.drain = none := by
  cases drain : p.drain with
  | none => rfl
  | some n =>
    obtain ⟨-, ended, -⟩ := h.drains n drain
    exact absurd (allEnded_iff.mp ended i phase found) active

theorem not_mem_line {phase : PollerPhase} (h : p.Balanced limit loose) (found : p.phaseAt i = some phase)
    (away : phase ≠ .queued) : i ∉ p.line := by
  intro member
  have queued := h.line_queued i member
  rw [found] at queued
  exact away (Option.some.inj queued)

/-- A poller goes on to another phase, perhaps with a place in line or a free permit taken or left. -/
theorem enter {phase next : PollerPhase} (h : p.Balanced limit loose) (found : p.phaseAt i = some phase)
    (active : phase ≠ .ended) (free : Nat) (line : List Nat) {loose' : Nat}
    (total : free + next.holds.toNat + loose' = p.free + phase.holds.toNat + loose) (nodup : line.Nodup)
    (queued : ∀ k ∈ line, k = i ∧ next = .queued ∨ k ≠ i ∧ k ∈ p.line) :
    ({ p with free, line }.enter i next).Balanced limit loose' where
  limit_eq := h.limit_eq
  total := by
    have whole := h.total
    have moved := held_enter found next
    show free + (p.enter i next).held + p.pending + p.collected + loose' = limit
    omega
  line_nodup := nodup
  line_queued := fun k hk => by
    show (p.enter i next).phaseAt k = some .queued
    rw [phaseAt_enter]
    rcases queued k hk with ⟨rfl, rfl⟩ | ⟨other, member⟩
    · rw [found, Option.map_some, if_pos rfl]
    · rw [h.line_queued k member, Option.map_some, if_neg other.symm]
  drains := fun n drain => by
    have none : p.drain = none := h.drain_eq_none found active
    exact absurd (none.symm.trans drain) nofun

theorem enter_away {phase next : PollerPhase} (h : p.Balanced limit loose) (found : p.phaseAt i = some phase)
    (active : phase ≠ .ended) (away : phase ≠ .queued) (free : Nat) {loose' : Nat}
    (total : free + next.holds.toNat + loose' = p.free + phase.holds.toNat + loose) :
    ({ p with free }.enter i next).Balanced limit loose' := by
  -- Everyone in line is queued, so this poller does not stand there and the line can stay as it is.
  refine h.enter found active free p.line total h.line_nodup fun k hk => Or.inr ⟨?_, hk⟩
  rintro rfl
  exact h.not_mem_line found away hk

/-! ### A permit on its way back -/

theorem granted {first : Nat} {rest : List Nat} (h : p.Balanced limit (loose + 1)) (line : p.line = first :: rest) :
    ({ p with line := rest }.enter first .granted).Balanced limit loose := by
  have nodup := h.line_nodup
  have queued := h.line_queued first (by rw [line]; exact List.mem_cons_self)
  rw [line, List.nodup_cons] at nodup
  refine h.enter queued nofun p.free rest ?_ nodup.2 fun k hk => Or.inr ⟨?_, ?_⟩
  · show p.free + 1 + loose = p.free + 0 + (loose + 1)
    omega
  · rintro rfl
    exact nodup.1 hk
  · rw [line]
    exact List.mem_cons_of_mem first hk

theorem kept {n : Nat} (h : p.Balanced limit (loose + 1)) (drain : p.drain = some n) (short : n < p.drainGoal) :
    { p with drain := some (n + 1) }.Balanced limit loose := by
  have whole := h.total
  have before : p.collected = n := by rw [collected, drain]; rfl
  obtain ⟨stopping, ended, -, spent⟩ := h.drains n drain
  refine ⟨h.limit_eq, ?_, h.line_nodup, h.line_queued, ?_⟩
  · show p.free + p.held + p.pending + (n + 1) + loose = limit
    omega
  · rintro _ ⟨⟩
    exact ⟨stopping, ended, short, fun _ => spent short⟩

theorem freed (h : p.Balanced limit (loose + 1)) (enough : ∀ n, p.drain = some n → ¬n < p.drainGoal) :
    { p with free := p.free + 1 }.Balanced limit loose := by
  have whole := h.total
  refine ⟨h.limit_eq, ?_, h.line_nodup, h.line_queued, fun n drain => ?_⟩
  · show p.free + 1 + p.held + p.pending + p.collected + loose = limit
    omega
  · obtain ⟨stopping, ended, bound, -⟩ := h.drains n drain
    exact ⟨stopping, ended, bound, fun short => absurd short (enough n drain)⟩

theorem release (h : p.Balanced limit (loose + 1)) : p.release.Balanced limit loose := by
  unfold Pool.release
  split
  · next first rest line => exact h.granted line
  · next n line drain =>
    split
    · next short => exact h.kept drain short
    · next enough =>
      refine h.freed fun m same => ?_
      obtain rfl := Option.some.inj (drain.symm.trans same)
      exact enough
  · next drain =>
    refine h.freed fun m same => ?_
    cases drain.symm.trans same

/-- A dispatch goes on to another phase, and its permit is loose when it is over. -/
theorem advance {task : Task} {phase next : DispatchPhase} (h : p.Balanced limit 0)
    (found : p.dispatches[j]? = some ⟨i, task, phase⟩) (tally : Tally)
    (total : next.isPending.toNat + loose = phase.isPending.toNat) :
    ({ p with tally }.advance j next).Balanced limit loose where
  limit_eq := h.limit_eq
  total := by
    have whole := h.total
    have moved : (p.advance j next).pending + _ = p.pending + _ := count_moved found rfl DispatchPhase.isPending
    show p.free + p.held + (p.advance j next).pending + p.collected + loose = limit
    omega
  line_nodup := h.line_nodup
  line_queued := h.line_queued
  drains := h.drains

theorem spawn (h : p.Balanced limit 1) (task : Task) : (p.spawn i task).Balanced limit 0 where
  limit_eq := h.limit_eq
  total := by
    have whole := h.total
    have one : (p.spawn i task).pending = p.pending + 1 := count_claimed rfl DispatchPhase.isPending
    show p.free + p.held + (p.spawn i task).pending + p.collected + 0 = limit
    omega
  line_nodup := h.line_nodup
  line_queued := h.line_queued
  drains := h.drains

/-! ### Events -/

theorem seek (h : p.Balanced limit 0) {phase : PollerPhase} (found : p.phaseAt i = some phase) (active : phase ≠ .ended)
    (away : phase ≠ .queued) (without : phase.holds = false) : (p.seek i).Balanced limit 0 := by
  unfold Pool.seek
  split
  · exact h.enter_away found active away p.free (by rw [without]; rfl)
  · split
    · next some =>
      refine h.enter_away found active away (p.free - 1) ?_
      rw [without]
      show p.free - 1 + 1 + 0 = p.free + 0 + 0
      omega
    · have new : i ∉ p.line := h.not_mem_line found away
      have nodup : (p.line ++ [i]).Nodup := by
        rw [List.nodup_append]
        refine ⟨h.line_nodup, List.nodup_cons.mpr ⟨List.not_mem_nil, .nil⟩, fun k hk l hl same => ?_⟩
        obtain rfl := List.mem_singleton.mp hl
        exact new (same ▸ hk)
      refine h.enter found active p.free (p.line ++ [i]) (by rw [without]; rfl) nodup fun k hk => ?_
      rcases List.mem_append.mp hk with before | last
      · refine Or.inr ⟨?_, before⟩
        rintro rfl
        exact new before
      · exact Or.inl ⟨List.mem_singleton.mp last, rfl⟩

theorem wake (h : p.Balanced limit 0) (i : Nat) : (p.wake i).Balanced limit 0 := by
  unfold Pool.wake
  split
  · exact h
  · split
    · next found => exact h.seek found nofun nofun rfl
    · next found => exact h.seek found nofun nofun rfl
    · next found =>
      split
      · refine h.enter found nofun p.free (p.line.erase i) rfl (h.line_nodup.erase i) fun k hk => Or.inr ?_
        exact (h.line_nodup.mem_erase_iff).mp hk
      · exact h
    · next found =>
      split
      · have loose : (p.enter i .ended).Balanced limit 1 := h.enter_away found nofun nofun p.free rfl
        exact loose.release
      · exact h.enter_away found nofun nofun p.free rfl
    · exact h

theorem claimed (h : p.Balanced limit 0) (i : Nat) (answer : Option Task) : (p.claimed i answer).Balanced limit 0 := by
  unfold Pool.claimed
  split
  · next task found =>
    have taken : (p.enter i .ready).Balanced limit 1 := h.enter_away found nofun nofun p.free rfl
    exact taken.spawn task
  · next found =>
    have loose : (p.enter i (if p.signalled then .ended else .resting)).Balanced limit 1 :=
      h.enter_away found nofun nofun p.free (by split <;> rfl)
    exact loose.release
  · exact h

theorem pollerCrashed (h : p.Balanced limit 0) (i : Nat) : (p.pollerCrashed i).Balanced limit 0 := by
  unfold Pool.pollerCrashed
  split
  · next found =>
    have loose : (p.enter i .ended).Balanced limit 1 := h.enter_away found nofun nofun p.free rfl
    exact loose.release
  · exact h

theorem begun (h : p.Balanced limit 0) (j : Nat) : (p.begun j).Balanced limit 0 := by
  unfold Pool.begun
  split
  · next stage =>
    obtain ⟨i, task, found⟩ := stageAt_eq_some.mp stage
    exact h.advance found _ rfl
  · exact h

theorem handled (h : p.Balanced limit 0) (j : Nat) (ending : Handling) : (p.handled j ending).Balanced limit 0 := by
  unfold Pool.handled
  split
  · next stage =>
    obtain ⟨i, task, found⟩ := stageAt_eq_some.mp stage
    exact h.advance found _ rfl
  · exact h

theorem resolved (h : p.Balanced limit 0) (j : Nat) (taken : Bool) : (p.resolved j taken).Balanced limit 0 := by
  unfold Pool.resolved
  split
  · next resolution stage =>
    obtain ⟨i, task, found⟩ := stageAt_eq_some.mp stage
    have loose (tally : Tally) : ({ p with tally }.advance j .done).Balanced limit 1 := h.advance found tally rfl
    exact (loose _).release
  · exact h

theorem dispatchCrashed (h : p.Balanced limit 0) (j : Nat) : (p.dispatchCrashed j).Balanced limit 0 := by
  unfold Pool.dispatchCrashed
  split
  · next stage =>
    obtain ⟨i, task, found⟩ := stageAt_eq_some.mp stage
    have loose : (p.advance j .done).Balanced limit 1 := h.advance found p.tally rfl
    exact loose.release
  · exact h

theorem register (h : p.Balanced limit 0) (pattern : String) : (p.orSame (p.register pattern)).Balanced limit 0 := by
  unfold Pool.register
  split
  · exact h
  · next idle =>
    cases Pattern.read pattern with
    | error cause => exact h
    | ok pattern =>
      let q : Pool := { p with pollers := p.pollers ++ [⟨pattern, .ready⟩] }
      have held : q.held = p.held + 0 := List.countP_append
      refine ⟨h.limit_eq, ?_, h.line_nodup, fun k hk => ?_, fun n drain => ?_⟩
      · have whole := h.total
        show p.free + q.held + p.pending + p.collected + 0 = limit
        omega
      · obtain ⟨poller, stored, same⟩ := Option.map_eq_some_iff.mp (h.line_queued k hk)
        refine Option.map_eq_some_iff.mpr ⟨poller, ?_, same⟩
        exact List.getElem?_append_left (List.getElem?_eq_some_iff.mp stored).1 |>.trans stored
      · exact absurd (h.drains n drain).1 fun stopping => idle (stopping ▸ nofun)

theorem start (h : p.Balanced limit 0) : (p.orSame p.start).Balanced limit 0 := by
  unfold Pool.start
  split
  · exact h
  · next idle =>
    refine ⟨h.limit_eq, h.total, h.line_nodup, h.line_queued, fun n drain => ?_⟩
    exact absurd (h.drains n drain).1 fun stopping => idle (stopping ▸ nofun)

theorem stop (h : p.Balanced limit 0) : (p.orSame p.stop).Balanced limit 0 := by
  unfold Pool.stop
  split
  · exact h
  · exact ⟨h.limit_eq, h.total, h.line_nodup, h.line_queued, fun n drain => ⟨rfl, (h.drains n drain).2⟩⟩

theorem collect (h : p.Balanced limit 0) : p.collect.Balanced limit 0 := by
  unfold Pool.collect
  split
  · next when =>
    obtain ⟨stopping, ended, none⟩ := when
    have before : p.collected = 0 := by rw [collected, none]; rfl
    refine ⟨h.limit_eq, ?_, h.line_nodup, h.line_queued, ?_⟩
    · have whole := h.total
      show p.free - min p.free p.drainGoal + p.held + p.pending + min p.free p.drainGoal + 0 = limit
      omega
    · rintro _ ⟨⟩
      refine ⟨stopping, ended, Nat.min_le_right .., fun short => ?_⟩
      show p.free - min p.free p.drainGoal = 0
      have short : min p.free p.drainGoal < p.drainGoal := short
      omega
  · exact h

theorem leave (h : p.Balanced limit 0) : p.leave.Balanced limit 0 := by
  unfold Pool.leave
  split
  · refine ⟨h.limit_eq, ?_, h.line_nodup, h.line_queued, nofun⟩
    have whole := h.total
    show p.free + p.collected + p.held + p.pending + 0 + 0 = limit
    omega
  · exact h

theorem after (h : p.Balanced limit 0) (event : Event) : (p.after event).Balanced limit 0 := by
  cases event with
  | register pattern => exact h.register pattern
  | start => exact h.start
  | stop => exact h.stop
  | wake i => exact h.wake i
  | claimed i answer => exact h.claimed i answer
  | pollerCrashed i => exact h.pollerCrashed i
  | begun j => exact h.begun j
  | handled j ending => exact h.handled j ending
  | resolved j taken => exact h.resolved j taken
  | dispatchCrashed j => exact h.dispatchCrashed j
  | collect => exact h.collect
  | leave => exact h.leave

end Balanced

/-! ### Runs -/

section
variable {ε : Type} {n : Nat} {p q : Pool} {es : List Step}

theorem Balanced.of_create (made : (create n : Outcome ε Pool) = .ok p) : p.Balanced (max 1 n) 0 := by
  obtain ⟨-, rfl⟩ := create_eq_ok.mp made
  exact ⟨Nat.max_comm n 1, Nat.max_comm n 1, .nil, nofun, nofun⟩

theorem Run.balanced {limit : Nat} (run : Run p es q) (start : p.Balanced limit 0) : q.Balanced limit 0 :=
  run.invariant (fun p => p.Balanced limit 0) start fun step _ h => h.after step.event

theorem Step.pending_after (step : Step) :
    step.before.pending + step.claimed.length = step.after.pending + step.settles.toNat := by
  cases step.works with
  | rests same claimed settles =>
    have kept : step.after.pending = step.before.pending := count_same same.dispatches _
    rw [claimed, settles, kept]
    rfl
  | claims dispatches tally claimed settles =>
    have more : step.after.pending = step.before.pending + 1 := count_claimed dispatches _
    rw [claimed, settles, more]
    rfl
  | @moves i j task phase next found dispatches turn claimed settles =>
    have moved : step.after.pending + _ = step.before.pending + _ := count_moved found dispatches DispatchPhase.isPending
    have settles : step.settles = !next.isPending := by
      rw [Bool.eq_iff_iff, settles]
      cases next <;> simp [DispatchPhase.isPending]
    have one : next.isPending.toNat + (!next.isPending).toNat = 1 := by cases next <;> rfl
    rw [turn.isPending, Bool.toNat_true] at moved
    rw [claimed, settles, List.length_nil]
    omega
  | crashes _ found dispatches _ claimed settles =>
    have moved : step.after.pending + 1 = step.before.pending := count_moved found dispatches DispatchPhase.isPending
    rw [claimed, settles, ← moved]
    rfl

/-- As many tasks are pending as have been claimed and are not settled. -/
theorem Run.pending_eq (run : Run p es q) :
    p.pending + (claims es).length = es.countP Step.settles + q.pending := by
  induction run with
  | nil => exact Nat.add_comm p.pending 0
  | snoc step front ih =>
    have last := step.pending_after
    have settled : [step].countP Step.settles = step.settles.toNat := by
      rw [List.countP_singleton]
      cases step.settles <;> rfl
    rw [claims_snoc, List.length_append, List.countP_append, settled]
    omega

/-- Free permits, those of pollers, those of pending dispatches and those that a stop has collected are all that the pool
    was made with, at every point of a run. So no more tasks are pending at a time, of those claimed and not settled. -/
theorem permits_conserved (made : (create n : Outcome ε Pool) = .ok p) (run : Run p es q) :
    q.free + q.held + q.pending + q.collected = max 1 n ∧ q.pending ≤ max 1 n ∧
      (claims es).length = es.countP Step.settles + q.pending := by
  have balanced : q.Balanced (max 1 n) 0 := run.balanced (.of_create made)
  have whole : q.free + q.held + q.pending + q.collected = max 1 n := balanced.total
  refine ⟨whole, by omega, ?_⟩
  have counted := run.pending_eq
  obtain ⟨-, rfl⟩ := create_eq_ok.mp made
  rwa [show Pool.pending _ = 0 from rfl, Nat.zero_add] at counted

end

/-- Two pollers ask the store for tasks. -/
def Event.underWay : List Event := [.register "a", .register "b", .start, .wake 0, .wake 1]

/-- What is left of that when the pool is stopped meanwhile: a task goes to a dispatch all the same, which holds its permit
    back from the stop. -/
def Event.overtaken (task : Task) : List Event :=
  [.claimed 0 (some task), .begun 0, .wake 0, .claimed 1 none, .collect]

/-- A task as its producer has described it. -/
def plainTask : Task := .create (.made 0) (.of "a" []) .epoch

theorem permits_conserved_overtaken :
    ∃ p es q, (create 2 : Outcome Refusal Pool) = .ok p ∧ Run p es q ∧
      (q.free, q.held, q.pending, q.collected) = (0, 0, 1, 1) ∧
      q.free + q.held + q.pending + q.collected = max 1 2 ∧ q.pending ≤ max 1 2 ∧
      (claims es).length = es.countP Step.settles + q.pending := by
  have made : (create 2 : Outcome Refusal Pool) = .ok { limit := 2, free := 2 } := rfl
  have run := Run.of_events { limit := 2, free := 2 } (Event.underWay ++ .stop :: Event.overtaken plainTask)
  exact ⟨_, _, _, made, run, by decide, permits_conserved made run⟩

end Pool
end DurableQueue
