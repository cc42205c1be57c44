import DurableQueue.Proofs.Pool.Dispatches

/-! What becomes of each task that a pool has claimed: one call of the handler that goes with the poller, and, when that
    has ended, one call of the store for the same task, which its end decides. While no call of the store crashes, the
    phase of a dispatch says how far its task has come, so that nothing is forgotten and nothing done twice, and the
    tally can be read off the phases. -/

namespace DurableQueue

/-- Whether the handler has ended. -/
def DispatchPhase.hasEnded : DispatchPhase → Bool
  | resolving _ | done => true
  | _ => false

/-- Whether the handler has begun and its task is not resolved. -/
def DispatchPhase.isUnderWay : DispatchPhase → Bool
  | handling | resolving _ => true
  | _ => false

/-- Whether the handler has ended with what the tally notes only when the store has answered. -/
def DispatchPhase.isUncounted : DispatchPhase → Bool
  | resolving .ack | resolving .requeue => true
  | _ => false

/-- How far a dispatch has come. -/
def DispatchPhase.rank : DispatchPhase → Nat
  | spawned => 0
  | handling => 1
  | resolving _ => 2
  | done => 3

/-- The handlers that have ended, as far as the tally says how. -/
def Tally.accounted (t : Tally) : Nat := t.succeeded + t.ackFailures + t.requeued + t.failed

namespace Pool

/-- What has become of a task whose dispatch is in a phase. -/
inductive Way (i : Nat) (task : Task) : DispatchPhase → List Deed → Prop where
  | spawned : Way i task .spawned []
  | handling : Way i task .handling [.called i task]
  | resolving {ending : Handling} {resolution : Resolution}
      (fits : ∀ now, Resolves task.id now ending (Simulation.write task.id now resolution)) :
      Way i task (.resolving resolution) [.called i task, .ended ending, .asked task.id resolution]
  | done {ending : Handling} {resolution : Resolution}
      (fits : ∀ now, Resolves task.id now ending (Simulation.write task.id now resolution)) (taken : Bool) :
      Way i task .done [.called i task, .ended ending, .asked task.id resolution, .answered taken]

theorem Way.turn {i : Nat} {task : Task} {phase next : DispatchPhase} {t t' : Tally} {past deeds : List Deed}
    (h : Way i task phase past) (turn : Turn i task phase next t t' deeds) : Way i task next (past ++ deeds) := by
  cases turn with
  | begins =>
    cases h
    exact .handling
  | ends _ ending =>
    cases h
    exact .resolving fun now => Resolution.resolves_of task.id now ending
  | answers _ resolution taken =>
    cases h with
    | resolving fits => exact .done fits taken

section
variable {p q : Pool} {es : List Step} {step : Step} {i j k : Nat} {task : Task} {phase next : DispatchPhase}

theorem done_of_pending (none : p.pending = 0) : ∀ d ∈ p.dispatches, d.phase = .done := by
  intro d member
  have resolved := List.countP_eq_zero.mp none d member
  cases phase : d.phase with
  | done => rfl
  | spawned | handling | resolving => simp [phase, DispatchPhase.isPending] at resolved

theorem count_of_pending (none : p.pending = 0) {q : DispatchPhase → Bool} (out : q .done = false) : p.count q = 0 := by
  refine List.countP_eq_zero.mpr fun d member => ?_
  rw [done_of_pending none d member, out]
  nofun

/-! ### The record of a run -/

theorem dispatches_advance (p : Pool) (j k : Nat) (next : DispatchPhase) :
    (p.advance j next).dispatches[k]? =
      p.dispatches[k]?.map fun d => if j = k then { d with phase := next } else d :=
  List.getElem?_modify ..

theorem origins_advance (p : Pool) (j : Nat) (next : DispatchPhase) :
    (p.advance j next).dispatches.map (fun d => (d.poller, d.task)) = p.dispatches.map fun d => (d.poller, d.task) := by
  refine List.ext_getElem? fun k => ?_
  rw [List.getElem?_map, List.getElem?_map, dispatches_advance, Option.map_map]
  congr 1
  funext d
  by_cases same : j = k
  · simp [same]
  · simp [same]

/-- The dispatches of a pool are its claims in their order, each as far as the history of its task says. -/
structure Recorded (es : List Step) (p : Pool) : Prop where
  claimed : p.dispatches.map (fun d => (d.poller, d.task)) = claims es
  ways : ∀ j d, p.dispatches[j]? = some d → Way d.poller d.task d.phase (history es j)
  silent : ∀ j, p.dispatches.length ≤ j → history es j = []

namespace Recorded

theorem getElem? (h : Recorded es p) (j : Nat) :
    (claims es)[j]? = p.dispatches[j]?.map fun d => (d.poller, d.task) := by
  rw [← h.claimed, List.getElem?_map]

theorem length_eq (h : Recorded es p) : (claims es).length = p.dispatches.length := by
  rw [← h.claimed, List.length_map]

theorem way (h : Recorded es p) (claimed : (claims es)[j]? = some (i, task)) :
    ∃ phase, p.stageAt j = some phase ∧ Way i task phase (history es j) := by
  rw [h.getElem?] at claimed
  obtain ⟨d, found, same⟩ := Option.map_eq_some_iff.mp claimed
  obtain ⟨rfl, rfl⟩ := Prod.mk.inj same
  exact ⟨d.phase, stageAt_eq_some.mpr ⟨_, _, found⟩, h.ways j d found⟩

theorem way_done (h : Recorded es p) (none : p.pending = 0) (claimed : (claims es)[j]? = some (i, task)) :
    Way i task .done (history es j) := by
  obtain ⟨phase, stage, way⟩ := h.way claimed
  obtain ⟨_, _, found⟩ := stageAt_eq_some.mp stage
  obtain rfl := done_of_pending none _ (List.mem_of_getElem? found)
  exact way

theorem snoc (h : Recorded es step.before) (whole : step.crashes = false) : Recorded (es ++ [step]) step.after := by
  cases step.works with
  | rests same claimed settles deeds =>
    have history_eq (j : Nat) : history (es ++ [step]) j = history es j := by
      rw [history_snoc, deeds, List.append_nil]
    refine ⟨?_, fun j d found => ?_, fun j out => ?_⟩
    · rw [claims_snoc, claimed, List.append_nil, same.dispatches]
      exact h.claimed
    · rw [history_eq]
      exact h.ways j d (same.dispatches ▸ found)
    · rw [history_eq]
      exact h.silent j (same.dispatches ▸ out)
  | @claims i task dispatches tally claimed settles deeds =>
    have history_eq (j : Nat) : history (es ++ [step]) j = history es j := by
      rw [history_snoc, deeds, List.append_nil]
    refine ⟨?_, fun j d found => ?_, fun j out => ?_⟩
    · rw [claims_snoc, claimed, dispatches, List.map_append, h.claimed]
      rfl
    · rw [history_eq]
      rw [dispatches, List.getElem?_append] at found
      split at found
      · exact h.ways j d found
      · next out =>
        -- The new dispatch stands behind the others, where nothing has been done yet.
        rw [h.silent j (Nat.le_of_not_lt out)]
        obtain rfl := List.mem_singleton.mp (List.mem_of_getElem? found)
        exact .spawned
    · rw [history_eq]
      rw [dispatches, List.length_append] at out
      exact h.silent j (Nat.le_of_add_right_le out)
  | @moves i k task phase next found dispatches turn claimed settles others =>
    refine ⟨?_, fun j d moved => ?_, fun j out => ?_⟩
    · rw [claims_snoc, claimed, List.append_nil, dispatches, origins_advance]
      exact h.claimed
    · rw [dispatches, dispatches_advance] at moved
      obtain ⟨before, stored, rfl⟩ := Option.map_eq_some_iff.mp moved
      rw [history_snoc]
      by_cases same : k = j
      · subst same
        obtain rfl := Option.some.inj (found.symm.trans stored)
        rw [if_pos rfl]
        exact (h.ways k _ stored).turn turn
      · rw [if_neg same, others j (Ne.symm same), List.append_nil]
        exact h.ways j before stored
    · have inside : k < step.before.dispatches.length := (List.getElem?_eq_some_iff.mp found).1
      rw [dispatches] at out
      have out : step.before.dispatches.length ≤ j := List.length_modify .. ▸ out
      rw [history_snoc, h.silent j out, others j (by omega)]
      rfl
  | crashes crash => exact absurd crash (Bool.not_eq_true _ ▸ whole)

end Recorded

/-! ### The tally -/

/-- The tally of a pool is what its dispatches come to. A failure that the store does not take counts twice, so what the
    handlers have come to is known only up to these. -/
structure Counted (p : Pool) : Prop where
  processed : p.tally.processed = p.count DispatchPhase.hasEnded
  inFlight : p.tally.inFlight = p.count DispatchPhase.isUnderWay
  low : p.tally.accounted + p.count DispatchPhase.isUncounted ≤ p.tally.processed
  high : p.tally.processed ≤ p.tally.accounted + p.tally.nackFailures + p.count DispatchPhase.isUncounted

theorem Turn.tally {t t' : Tally} {deeds : List Deed} (turn : Turn i task phase next t t' deeds)
    (enough : phase.isUnderWay.toNat ≤ t.inFlight) :
    t'.processed + phase.hasEnded.toNat = t.processed + next.hasEnded.toNat ∧
    t'.inFlight + phase.isUnderWay.toNat = t.inFlight + next.isUnderWay.toNat ∧
    t.processed + t'.accounted + next.isUncounted.toNat ≤ t'.processed + t.accounted + phase.isUncounted.toNat ∧
    t'.processed + t.accounted + t.nackFailures + phase.isUncounted.toNat ≤
      t.processed + t'.accounted + t'.nackFailures + next.isUncounted.toNat := by
  cases turn with
  | begins => exact ⟨rfl, rfl, Nat.le_refl _, Nat.le_refl _⟩
  | ends _ ending =>
    cases Resolution.of ending <;>
      simp [Tally.handled, Tally.accounted, DispatchPhase.hasEnded, DispatchPhase.isUnderWay, DispatchPhase.isUncounted] <;>
      omega
  | answers _ resolution taken =>
    have enough : 1 ≤ t.inFlight := enough
    cases resolution <;> cases taken <;>
      simp [Tally.resolved, Tally.accounted, DispatchPhase.hasEnded, DispatchPhase.isUnderWay,
        DispatchPhase.isUncounted] <;>
      omega

theorem Counted.after (h : step.before.Counted) (whole : step.crashes = false) : step.after.Counted := by
  obtain ⟨processed, inFlight, low, high⟩ := h
  cases step.works with
  | rests same =>
    have counts := count_same same.dispatches
    constructor <;> rw [same.tally, counts] <;> assumption
  | claims dispatches tally =>
    have ended : step.after.count _ = step.before.count _ := count_claimed dispatches DispatchPhase.hasEnded
    have underWay : step.after.count _ = step.before.count _ := count_claimed dispatches DispatchPhase.isUnderWay
    have uncounted : step.after.count _ = step.before.count _ := count_claimed dispatches DispatchPhase.isUncounted
    rw [← tally] at processed inFlight low high
    constructor <;> omega
  | @moves i j task phase next found dispatches turn =>
    have ended := count_moved found dispatches DispatchPhase.hasEnded
    have underWay := count_moved found dispatches DispatchPhase.isUnderWay
    have uncounted := count_moved found dispatches DispatchPhase.isUncounted
    -- The number in flight is taken down by one only where a dispatch is counted in it.
    have enough : phase.isUnderWay.toNat ≤ step.before.tally.inFlight := by
      have without : _ + phase.isUnderWay.toNat = step.before.count _ + 0 :=
        count_moved (q := step.before.advance j .done) found rfl DispatchPhase.isUnderWay
      omega
    obtain ⟨processed', inFlight', low', high'⟩ := turn.tally enough
    constructor <;> omega
  | crashes crash => exact absurd crash (Bool.not_eq_true _ ▸ whole)

/-! ### Progress -/

/-- A dispatch has come as far as a rank. -/
def AtLeast (j rank : Nat) (p : Pool) : Prop := ∃ phase, p.stageAt j = some phase ∧ rank ≤ phase.rank

/-- The events that a dispatch waits for, each with the rank that it leads to. -/
inductive Turning (j : Nat) : Event → Nat → Prop where
  | begun : Turning j (.begun j) 1
  | handled (ending : Handling) : Turning j (.handled j ending) 2
  | resolved (taken : Bool) : Turning j (.resolved j taken) 3

theorem stageAt_advance (p : Pool) (j k : Nat) (next : DispatchPhase) :
    (p.advance j next).stageAt k = (p.stageAt k).map fun phase => if j = k then next else phase := by
  rw [stageAt, stageAt, dispatches_advance, Option.map_map, Option.map_map]
  congr 1
  funext d
  by_cases same : j = k
  · simp [same]
  · simp [same]

theorem stageAt_of_dispatches (same : q.dispatches = p.dispatches) (k : Nat) : q.stageAt k = p.stageAt k := by
  rw [stageAt, stageAt, same]

theorem Turn.rank_lt {t t' : Tally} {deeds : List Deed} (turn : Turn i task phase next t t' deeds) :
    phase.rank < next.rank := by
  cases turn <;> exact Nat.lt_succ_self _

theorem AtLeast.advance {rank : Nat} (h : p.AtLeast k rank) (found : p.stageAt j = some phase)
    (further : phase.rank ≤ next.rank) : (p.advance j next).AtLeast k rank := by
  obtain ⟨old, stage, far⟩ := h
  refine ⟨_, by rw [stageAt_advance, stage, Option.map_some], ?_⟩
  split
  · next same =>
    rw [same, stage] at found
    obtain rfl := Option.some.inj found
    exact Nat.le_trans far further
  · exact far

theorem AtLeast.of_dispatches {rank : Nat} (h : p.AtLeast k rank) (same : q.dispatches = p.dispatches) :
    q.AtLeast k rank := by
  obtain ⟨phase, stage, far⟩ := h
  exact ⟨phase, (stageAt_of_dispatches same k).trans stage, far⟩

/-- No event takes a dispatch back. -/
theorem AtLeast.after {rank : Nat} (h : step.before.AtLeast k rank) : step.after.AtLeast k rank := by
  cases step.works with
  | rests same => exact h.of_dispatches same.dispatches
  | claims dispatches =>
    obtain ⟨phase, stage, far⟩ := h
    obtain ⟨i, task, found⟩ := stageAt_eq_some.mp stage
    refine ⟨phase, stageAt_eq_some.mpr ⟨i, task, ?_⟩, far⟩
    rw [dispatches, List.getElem?_append_left (List.getElem?_eq_some_iff.mp found).1, found]
  | moves found dispatches turn =>
    have stage := stageAt_eq_some.mpr ⟨_, _, found⟩
    exact (h.advance stage (Nat.le_of_lt turn.rank_lt)).of_dispatches dispatches
  | crashes _ found dispatches =>
    have stage := stageAt_eq_some.mpr ⟨_, _, found⟩
    have further : 2 ≤ DispatchPhase.done.rank := Nat.le_succ 2
    exact (h.advance stage further).of_dispatches dispatches

theorem atLeast_advance (found : p.stageAt j = some phase) (next : DispatchPhase) :
    (p.advance j next).AtLeast j next.rank :=
  ⟨next, by rw [stageAt_advance, found, Option.map_some, if_pos rfl], Nat.le_refl _⟩

theorem AtLeast.turning {rank : Nat} (h : step.before.AtLeast j rank) (turn : Turning j step.event (rank + 1)) :
    step.after.AtLeast j (rank + 1) := by
  obtain ⟨phase, stage, far⟩ := h
  -- Either the dispatch has come further before, or it waits for this event.
  by_cases further : rank + 1 ≤ phase.rank
  · exact AtLeast.after ⟨phase, stage, further⟩
  · have waits : phase.rank = rank := by omega
    obtain ⟨event, p⟩ := step
    change p.stageAt j = some phase at stage
    change Turning j event (rank + 1) at turn
    show (p.after event).AtLeast j (rank + 1)
    cases turn with
    | begun =>
      cases phase <;> cases waits
      simp only [Pool.after, Pool.begun, stage]
      exact atLeast_advance stage .handling
    | handled ending =>
      cases phase <;> cases waits
      simp only [Pool.after, Pool.handled, stage]
      exact atLeast_advance stage (.resolving (.of ending))
    | resolved taken =>
      cases phase <;> cases waits
      simp only [Pool.after, Pool.resolved, stage]
      have advanced (tally : Tally) : ({ p with tally }.advance j .done).AtLeast j 3 := atLeast_advance stage .done
      exact (advanced _).of_dispatches (Rests.release _).dispatches

theorem Run.atLeast {rank : Nat} (run : Run p es q) (start : p.AtLeast j rank) : q.AtLeast j rank :=
  run.invariant (AtLeast j rank) start fun _ _ h => h.after

/-- The first of the turns that a dispatch still gets in a run takes it further, and the others are still to come. -/
theorem Run.turning {rank : Nat} {event : Event} {rest : List Event} (run : Run p es q) (start : p.AtLeast j rank)
    (turn : Turning j event (rank + 1)) (turns : (event :: rest).Sublist (es.map Step.event)) :
    ∃ r back, Run r back q ∧ r.AtLeast j (rank + 1) ∧ rest.Sublist (back.map Step.event) := by
  obtain ⟨first, second, whole, happens, later⟩ := List.cons_sublist_iff.mp turns
  obtain ⟨front, back, rfl, rfl, rfl⟩ := List.map_eq_append_iff.mp whole
  obtain ⟨r, before, behind⟩ := run.cut
  obtain ⟨step, member, rfl⟩ := List.mem_map.mp happens
  obtain ⟨front, mid, rfl⟩ := List.append_of_mem member
  obtain ⟨before, between⟩ := before.split
  exact ⟨r, back, behind, between.atLeast ((before.atLeast start).turning turn), later⟩

/-- A dispatch gets its turns: its handler begins, ends, and the store answers, whatever else happens in between. -/
def Goes (j : Nat) (es : List Step) : Prop :=
  ∃ ending taken, [.begun j, .handled j ending, .resolved j taken].Sublist (es.map Step.event)

theorem Run.done_of_goes (run : Run p es q) (start : p.AtLeast j 0) (goes : Goes j es) : q.stageAt j = some .done := by
  obtain ⟨ending, taken, turns⟩ := goes
  obtain ⟨p₁, es₁, run, first, turns⟩ := run.turning start .begun turns
  obtain ⟨p₂, es₂, run, second, turns⟩ := run.turning first (.handled ending) turns
  obtain ⟨p₃, es₃, run, third, -⟩ := run.turning second (.resolved taken) turns
  obtain ⟨phase, stage, far⟩ := run.atLeast third
  cases phase with
  | done => exact stage
  | spawned | handling | resolving => simp [DispatchPhase.rank] at far

/-! ### Runs -/

theorem Recorded.of_run (run : Run p es q) (new : p.dispatches = []) (whole : ∀ step ∈ es, step.crashes = false) :
    Recorded es q := by
  induction run with
  | nil =>
    refine ⟨by rw [new]; rfl, fun j d found => ?_, fun _ _ => rfl⟩
    rw [new] at found
    cases found
  | snoc last _ ih =>
    have front : Recorded _ last.before := ih fun step hstep => whole step (List.mem_append_left _ hstep)
    exact front.snoc (whole last (List.mem_append_right _ List.mem_cons_self))

theorem Run.counted (run : Run p es q) (start : p.Counted) (whole : ∀ step ∈ es, step.crashes = false) : q.Counted :=
  run.invariant Counted start fun step hstep h => h.after (whole step hstep)

theorem dispatches_create {ε : Type} {n : Nat} (made : (create n : Outcome ε Pool) = .ok p) : p.dispatches = [] := by
  obtain ⟨-, rfl⟩ := create_eq_ok.mp made
  rfl

theorem Counted.of_create {ε : Type} {n : Nat} (made : (create n : Outcome ε Pool) = .ok p) : p.Counted := by
  obtain ⟨-, rfl⟩ := create_eq_ok.mp made
  exact ⟨rfl, rfl, Nat.le_refl _, Nat.le_refl _⟩

theorem Step.spawned_of_claimed (claimed : (i, task) ∈ step.claimed) :
    step.claimed = [(i, task)] ∧ step.after.stageAt step.before.dispatches.length = some .spawned := by
  cases step.works with
  | @claims i' task' dispatches tally only =>
    rw [only] at claimed ⊢
    obtain ⟨rfl, rfl⟩ := Prod.mk.inj (List.mem_singleton.mp claimed)
    refine ⟨rfl, stageAt_eq_some.mpr ⟨i, task, ?_⟩⟩
    rw [dispatches, List.getElem?_append_right (Nat.le_refl _), Nat.sub_self]
    rfl
  | rests _ none | moves _ _ _ none | crashes _ _ _ _ none =>
    rw [none] at claimed
    cases claimed

/-- While no call of the store crashes, each claimed task has gone as far as the phase of its dispatch says, and nothing is
    done to any other. Given its turns, a dispatch comes to its end. When none is pending, as many handlers have ended as
    tasks were claimed, and the tally accounts for all of them but those whose outcome the store has not taken. -/
theorem claims_resolved {ε : Type} {n : Nat} (made : (create n : Outcome ε Pool) = .ok p) (run : Run p es q)
    (whole : ∀ step ∈ es, step.crashes = false) :
    (∀ j i task, (claims es)[j]? = some (i, task) →
      ∃ phase, q.stageAt j = some phase ∧ Way i task phase (history es j)) ∧
    (∀ j, (claims es).length ≤ j → history es j = []) ∧
    (∀ front step back i task, es = front ++ step :: back → (i, task) ∈ step.claimed →
      Goes (claims front).length back → Way i task .done (history es (claims front).length)) ∧
    (q.pending = 0 →
      (∀ j i task, (claims es)[j]? = some (i, task) → Way i task .done (history es j)) ∧
      q.tally.processed = (claims es).length ∧
      q.tally.succeeded + q.tally.ackFailures + q.tally.requeued + q.tally.failed ≤ q.tally.processed ∧
      q.tally.processed ≤
        q.tally.succeeded + q.tally.ackFailures + q.tally.requeued + q.tally.failed + q.tally.nackFailures) := by
  have new : p.dispatches = [] := dispatches_create made
  have recorded : Recorded es q := .of_run run new whole
  obtain ⟨processed, -, low, high⟩ := run.counted (.of_create made) whole
  refine ⟨fun j i task => recorded.way, fun j out => recorded.silent j (recorded.length_eq ▸ out), ?_, fun none => ?_⟩
  · rintro front step back i task rfl claimed goes
    obtain ⟨before, behind⟩ := run.split
    have front_whole : ∀ e ∈ front, e.crashes = false := fun e he => whole e (List.mem_append_left _ he)
    have place : (claims front).length = step.before.dispatches.length :=
      (Recorded.of_run before new front_whole).length_eq
    obtain ⟨only, spawned⟩ := step.spawned_of_claimed claimed
    have stage : q.stageAt (claims front).length = some .done :=
      behind.done_of_goes ⟨.spawned, place ▸ spawned, Nat.le_refl _⟩ goes
    obtain ⟨phase, found, way⟩ := recorded.way (claims_getElem? back only)
    obtain rfl := Option.some.inj (found.symm.trans stage)
    exact way
  · have done : ∀ d ∈ q.dispatches, d.phase = .done := done_of_pending none
    have ended : q.count DispatchPhase.hasEnded = (claims es).length := by
      rw [recorded.length_eq]
      exact List.countP_eq_length.mpr fun d hd => by rw [done d hd]; rfl
    rw [count_of_pending none rfl] at low high
    exact ⟨fun j i task => recorded.way_done none, processed.trans ended, low, high⟩

end

/-- Three tasks over one pattern: one that succeeds, one that is to be requeued, which the store refuses, and one whose
    handler crashes. -/
def Event.mixed (task : Nat → Task) : List Event :=
  [.register "a", .start, .wake 0, .claimed 0 (some (task 0)), .wake 0, .claimed 0 (some (task 1)), .begun 1, .begun 0,
    .handled 1 (.faulted (.requeue "busy")), .handled 0 .succeeded, .resolved 1 false, .resolved 0 true, .wake 0,
    .claimed 0 (some (task 2)), .begun 2, .handled 2 (.crashed (some "boom")), .resolved 2 true]

theorem claims_resolved_mixed :
    ∃ p es q, (create 2 : Outcome Refusal Pool) = .ok p ∧ Run p es q ∧ (∀ step ∈ es, step.crashes = false) ∧
      q.pending = 0 ∧
      (∀ j i task, (claims es)[j]? = some (i, task) → Way i task .done (history es j)) ∧
      q.tally.processed = (claims es).length ∧
      q.tally = { processed := 3, succeeded := 1, failed := 1, nackFailures := 1 } := by
  let task (n : Nat) : Task := .create (.made n) (.of "a" []) .epoch
  have made : (create 2 : Outcome Refusal Pool) = .ok { limit := 2, free := 2 } := rfl
  have run := Run.of_events { limit := 2, free := 2 } (Event.mixed task)
  have whole : ∀ step ∈ steps { limit := 2, free := 2 } (Event.mixed task), step.crashes = false := by decide
  obtain ⟨-, -, -, settled⟩ := claims_resolved made run whole
  obtain ⟨ways, processed, -⟩ := settled (by decide)
  exact ⟨_, _, _, made, run, whole, by decide, ways, processed, by decide⟩

end Pool
end DurableQueue
