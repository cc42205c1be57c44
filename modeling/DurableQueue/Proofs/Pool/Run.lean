import DurableQueue.Pool

/-! Runs of a pool: events one after the other in any order, whoever brings them about. Pollers, handlers, timers, the
    store and those who start and stop the pool all do, so that every interleaving of them is a run. Where a run begins,
    what it asks for and what it is told make up the history of each task that the pool has claimed. -/

namespace DurableQueue
namespace Pool

/-- An event, and the pool that it happens to. -/
structure Step where
  event : Event
  before : Pool

/-- What becomes of a claimed task in its dispatch. -/
inductive Deed where
  /-- The handler that goes with a poller is called with the task. -/
  | called (poller : Nat) (task : Task)
  /-- The handler ends. -/
  | ended (ending : Handling)
  /-- The store is asked to write an outcome. -/
  | asked (id : TaskId) (resolution : Resolution)
  /-- The store has answered. -/
  | answered (taken : Bool)
  deriving DecidableEq, Repr

/-- What a request does with the task of a dispatch. -/
def Request.deed? (j : Nat) : Request → Option Deed
  | .claim .. => none
  | .handle k i task => if k = j then some (.called i task) else none
  | .write k id resolution => if k = j then some (.asked id resolution) else none

/-- Whether a dispatch waits for the store to write an outcome. -/
def asking (p : Pool) (j : Nat) : Bool :=
  match p.stageAt j with
  | some (.resolving _) => true
  | _ => false

theorem asking_iff {p : Pool} {j : Nat} :
    p.asking j = true ↔ ∃ resolution, p.stageAt j = some (.resolving resolution) := by
  unfold asking
  split <;> simp_all

namespace Step

/-- The pool after the event. -/
def after (step : Step) : Pool := step.before.after step.event

/-- What the pool asks for. -/
def requests (step : Step) : List Request := step.before.requests step.event

/-- The call of the store that a dispatch has made crashes, and the dispatch with it. -/
def crashes (step : Step) : Bool :=
  match step.event with
  | .dispatchCrashed _ => true
  | _ => false

/-- The task that a poller gets from the store, with the place of the poller. -/
def claimed (step : Step) : List (Nat × Task) :=
  match step.event with
  | .claimed i (some task) => if step.before.phaseAt i = some .claiming then [(i, task)] else []
  | _ => []

/-- What a dispatch learns: that its handler has ended, or what the store has answered. -/
def told (step : Step) (j : Nat) : List Deed :=
  match step.event with
  | .handled k ending => if k = j ∧ step.before.stageAt j = some .handling then [.ended ending] else []
  | .resolved k taken => if k = j ∧ step.before.asking j then [.answered taken] else []
  | _ => []

/-- What becomes of the task of a dispatch. -/
def deeds (step : Step) (j : Nat) : List Deed := step.told j ++ step.requests.filterMap (Request.deed? j)

/-- A dispatch is over: the store has answered it, or has crashed. -/
def settles (step : Step) : Bool :=
  match step.event with
  | .resolved j _ | .dispatchCrashed j => step.before.asking j
  | _ => false

end Step

/-- The steps of a run, and the pool at its end. -/
inductive Run (p : Pool) : List Step → Pool → Prop where
  | nil : Run p [] p
  | snoc {es : List Step} (step : Step) (front : Run p es step.before) : Run p (es ++ [step]) step.after

/-- The tasks that the pool has claimed, each with the place of its poller, in the order of their dispatches. -/
def claims (es : List Step) : List (Nat × Task) := es.flatMap Step.claimed

/-- What has become of the task of a dispatch. -/
def history (es : List Step) (j : Nat) : List Deed := es.flatMap (·.deeds j)

/-- Events one after the other, with the pools that they happen to. -/
def steps : Pool → List Event → List Step
  | _, [] => []
  | p, e :: rest => ⟨e, p⟩ :: steps (p.after e) rest

/-- The pool after events one after the other. -/
def afterAll (p : Pool) (events : List Event) : Pool := events.foldl after p

section
variable {p q : Pool} {es es' : List Step} {step : Step}

theorem create_eq_ok {ε : Type} {n : Nat} : (create n : Outcome ε Pool) = .ok p ↔
    max n 1 ≤ greatestLimit ∧ p = { limit := max n 1, free := max n 1 } := by
  by_cases excess : greatestLimit < max n 1
  · have crash : (create n : Outcome ε Pool) = .crash := if_pos excess
    rw [crash]
    exact iff_of_false nofun fun h => Nat.not_le_of_lt excess h.1
  · have made : (create n : Outcome ε Pool) = .ok { limit := max n 1, free := max n 1 } := if_neg excess
    rw [made, Except.ok.injEq]
    exact ⟨fun same => ⟨Nat.le_of_not_lt excess, same.symm⟩, fun h => h.2.symm⟩

theorem claims_snoc (es : List Step) (step : Step) : claims (es ++ [step]) = claims es ++ step.claimed := by
  rw [claims, List.flatMap_append, List.flatMap_singleton]
  rfl

theorem claims_getElem? {claim : Nat × Task} (back : List Step) (only : step.claimed = [claim]) :
    (claims (es ++ step :: back))[(claims es).length]? = some claim := by
  have whole : claims (es ++ step :: back) = claims es ++ claim :: claims back := by
    rw [claims, List.flatMap_append, List.flatMap_cons, only]
    rfl
  rw [whole, List.getElem?_append_right (Nat.le_refl _), Nat.sub_self]
  rfl

theorem history_snoc (es : List Step) (step : Step) (j : Nat) :
    history (es ++ [step]) j = history es j ++ step.deeds j := by
  rw [history, List.flatMap_append, List.flatMap_singleton]
  rfl

namespace Run

theorem cons (tail : Run step.after es q) : Run step.before (step :: es) q := by
  induction tail with
  | nil => exact .snoc step (.nil : Run step.before [] step.before)
  | snoc last _ ih => exact .snoc last ih

/-- Whatever happens to a pool makes a run. -/
theorem of_events (p : Pool) (events : List Event) : Run p (steps p events) (p.afterAll events) := by
  induction events generalizing p with
  | nil => exact .nil
  | cons e rest ih =>
    have tail : Run (Step.mk e p).after (steps (p.after e) rest) (p.afterAll (e :: rest)) := ih (p.after e)
    exact tail.cons

theorem of_events_around (p : Pool) (front : List Event) (event : Event) (back : List Event) :
    Run p (steps p front ++ ⟨event, p.afterAll front⟩ :: steps ((p.afterAll front).after event) back)
      (((p.afterAll front).after event).afterAll back) := by
  induction front generalizing p with
  | nil => exact .of_events p (event :: back)
  | cons e rest ih =>
    have tail := ih (Step.mk e p).after
    exact tail.cons

/-- The part of a run in front of a step, and the part behind it. -/
theorem split (run : Run p (es ++ step :: es') q) : Run p es step.before ∧ Run step.after es' q := by
  generalize whole : es ++ step :: es' = all at run
  induction run generalizing es' with
  | nil => exact absurd whole (by simp)
  | snoc last front ih =>
    rcases List.eq_nil_or_concat es' with rfl | ⟨mid, final, rfl⟩
    · obtain ⟨rfl, same⟩ := List.append_inj' whole rfl
      obtain rfl := List.singleton_inj.mp same
      exact ⟨front, .nil⟩
    · rw [List.concat_eq_append, ← List.cons_append, ← List.append_assoc] at whole
      obtain ⟨start, same⟩ := List.append_inj' whole rfl
      obtain rfl := List.singleton_inj.mp same
      obtain ⟨before, behind⟩ := ih start
      rw [List.concat_eq_append]
      exact ⟨before, .snoc final behind⟩

theorem cut (run : Run p (es ++ es') q) : ∃ r, Run p es r ∧ Run r es' q := by
  cases es' with
  | nil => exact ⟨q, List.append_nil es ▸ run, .nil⟩
  | cons step rest =>
    obtain ⟨before, behind⟩ := run.split
    exact ⟨step.before, before, behind.cons⟩

/-- What holds at the start and is kept by each step of a run holds at its end. -/
theorem invariant (run : Run p es q) (P : Pool → Prop) (start : P p)
    (keep : ∀ step ∈ es, P step.before → P step.after) : P q := by
  induction run with
  | nil => exact start
  | snoc last _ ih =>
    have before := ih fun step hstep => keep step (List.mem_append_left _ hstep)
    exact keep last (List.mem_append_right _ List.mem_cons_self) before

end Run
end

end Pool
end DurableQueue
