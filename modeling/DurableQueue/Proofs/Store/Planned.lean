import DurableQueue.Proofs.Store.Turn
import Mathlib.Data.List.Induction

/-! Where the time of a job's next fire comes from. It is planned when the job is made and whenever it fires: the first
    time of the expression that the job has then. A new definition leaves it, so under another expression the job still
    fires once by the old plan. While the expression is the one of the plan and clocks do not go back, an active job waits
    for the first time of its schedule after its last fire, or after it was made. -/

namespace DurableQueue
namespace Store

namespace Event

/-- The call has planned the next fire of the job of that name, at the given time and by the given expression: it has
    fired the job, or made it. -/
def Plans (e : Event) (name : String) (now : Instant) (x : Expression) : Prop :=
  (∃ f, e.Fires name now f ∧ f.job.expression = x) ∨
    e.before.jobs.get? name = none ∧
      ∃ specs first, e.Registers name now specs ∧ specs.head? = some first ∧ first.expression = x

end Event

/-- The last call that has planned a fire of the job has done so at this time and by this expression. -/
def PlannedBy (es : List Event) (name : String) (now : Instant) (x : Expression) : Prop :=
  ∃ front e back, es = front ++ e :: back ∧ e.Plans name now x ∧ ∀ e' ∈ back, ∀ t y, ¬e'.Plans name t y

/-- The time of a call that registers or fires cron jobs. -/
def Call.jobTime? : Call → Option Instant
  | upsert _ _ now => some now
  | fire _ now _ _ => some now
  | _ => none

/-- The times of calls that register or fire cron jobs do not decrease, and none of them lies before year 0. -/
structure InOrder (es : List Event) : Prop where
  ordered : (es.filterMap (·.call.jobTime?)).Pairwise fun a b => a ≤ b
  since : ∀ t ∈ es.filterMap (·.call.jobTime?), Schedule.SinceYearZero t

variable {s : Store} {es es' : List Event} {e e' : Event} {name : String} {job final : Job} {t now : Instant}
variable {x : Expression}

/-! ### Times of calls -/

theorem Event.Registers.jobTime? {specs : List JobSpec} (h : e.Registers name now specs) :
    e.call.jobTime? = some now := by
  obtain ⟨-, ids, all, made, call, -⟩ := h
  rw [call]
  rfl

theorem Event.Plans.jobTime? (h : e.Plans name now x) : e.call.jobTime? = some now := by
  rcases h with ⟨f, ⟨ids, limit, maxAttempts, fired, call, -⟩, -⟩ | ⟨-, specs, first, registers, -⟩
  · rw [call]
    rfl
  · exact registers.jobTime?

theorem InOrder.front (h : InOrder (es ++ es')) : InOrder es := by
  obtain ⟨ordered, since⟩ := h
  rw [List.filterMap_append] at ordered since
  exact ⟨(List.pairwise_append.mp ordered).1, fun t ht => since t (List.mem_append_left _ ht)⟩

theorem InOrder.le (h : InOrder (es ++ es')) (he : e ∈ es) (ht : e.call.jobTime? = some t) (he' : e' ∈ es')
    (hnow : e'.call.jobTime? = some now) : t ≤ now := by
  have ordered := h.ordered
  rw [List.filterMap_append] at ordered
  exact (List.pairwise_append.mp ordered).2.2 t (List.mem_filterMap.mpr ⟨e, he, ht⟩) now
    (List.mem_filterMap.mpr ⟨e', he', hnow⟩)

theorem InOrder.since_of_mem (h : InOrder es) (he : e ∈ es) (ht : e.call.jobTime? = some t) :
    Schedule.SinceYearZero t :=
  h.since t (List.mem_filterMap.mpr ⟨e, he, ht⟩)

/-! ### Plans -/

theorem PlannedBy.last (h : e.Plans name now x) : PlannedBy (es ++ [e]) name now x :=
  ⟨es, e, [], rfl, h, nofun⟩

theorem PlannedBy.snoc (h : PlannedBy es name now x) (other : ∀ t y, ¬e.Plans name t y) :
    PlannedBy (es ++ [e]) name now x := by
  obtain ⟨front, e', back, rfl, plans, none⟩ := h
  refine ⟨front, e', back ++ [e], by rw [List.append_assoc, List.cons_append], plans, fun d hd => ?_⟩
  rcases List.mem_append.mp hd with hd | hd
  · exact none d hd
  · exact List.mem_singleton.mp hd ▸ other

/-- What a job waits for: the time that has been planned, if there was one. By clocks that do not go back there was one
    if the job is active and has the expression of the plan still. -/
structure Waits (es : List Event) (job : Job) (x : Expression) (planned : Option Instant) : Prop where
  asked : (x.next (job.lastRunAt.getD job.createdAt) : Outcome Refusal (Option Instant)) = .ok planned
  waits : ∀ later, planned = some later → job.nextRunAt = later
  goes : InOrder es → job.status = .active → job.expression = x → planned ≠ none

theorem waits_of_fire (es : List Event) {id : TaskId} {maxAttempts : Nat} {fire : Fire}
    (h : job.fire id now maxAttempts = .ok (final, fire)) :
    final.lastRunAt = some now ∧ ∃ planned, Waits es final final.expression planned := by
  obtain ⟨-, _, planned, -, found, rfl, -⟩ := Job.fire_eq_ok.mp h
  refine ⟨rfl, planned, found, ?_, ?_⟩
  · rintro later rfl
    rfl
  · rintro - active - rfl
    cases active

theorem waits_of_create (es : List Event) {id : JobId} {first last : JobSpec} (made : Job.create id first now = .ok job)
    (moved : job.apply last now = .ok final) :
    final.lastRunAt = none ∧ final.createdAt = now ∧ ∃ planned, Waits es final first.expression planned := by
  obtain ⟨planned, found, rfl⟩ := Job.create_eq_ok.mp made
  obtain ⟨after, found', rfl⟩ := Job.apply_eq_ok.mp moved
  refine ⟨rfl, rfl, planned, found, ?_, ?_⟩
  · rintro later rfl
    rfl
  · rintro - active same rfl
    -- The last definition has the expression of the first, and has found a time by it.
    obtain ⟨-, isSome⟩ := Job.statusFor_eq_active.mp active
    dsimp only at same
    rw [same] at found'
    cases found.symm.trans found'
    cases isSome

theorem Waits.apply {planned : Option Instant} {last : JobSpec} (h : Waits es job x planned)
    (moved : job.apply last now = .ok final)
    (later : InOrder es' → Schedule.SinceYearZero (job.lastRunAt.getD job.createdAt) ∧
      job.lastRunAt.getD job.createdAt ≤ now) : Waits es' final x planned := by
  obtain ⟨asked, waits, -⟩ := h
  obtain ⟨after, found, rfl⟩ := Job.apply_eq_ok.mp moved
  refine ⟨asked, waits, ?_⟩
  rintro inOrder active same rfl
  -- The expression has come to its end before, so the new definition has found no time by it.
  obtain ⟨since, le⟩ := later inOrder
  obtain ⟨-, isSome⟩ := Job.statusFor_eq_active.mp active
  dsimp only at same
  rw [same] at found
  have ended := Schedule.next?_none_of_le since (Expression.next_eq_ok.mp asked).2 le
  rw [(Expression.next_eq_ok.mp found).2] at ended
  rw [ended] at isSome
  cases isSome

theorem Waits.append {planned : Option Instant} (h : Waits es job x planned) : Waits (es ++ es') job x planned :=
  ⟨h.asked, h.waits, fun inOrder => h.goes inOrder.front⟩

/-! ### Runs -/

/-- What one call keeps: a call that plans no fire leaves the plan, and what the job waits for by it. -/
theorem Waits.step {planned : Option Instant} (plan : PlannedBy es name (job.lastRunAt.getD job.createdAt) x)
    (h : Waits es job x planned) (turn : e.Turns name (some job) (some final)) (other : ∀ t y, ¬e.Plans name t y) :
    PlannedBy (es ++ [e]) name (final.lastRunAt.getD final.createdAt) x ∧ Waits (es ++ [e]) final x planned := by
  cases turn with
  | kept => exact ⟨plan.snoc other, h.append⟩
  | registered registers moved =>
    rcases moved.applied with ⟨-, rfl⟩ | ⟨last, -, moved⟩
    · exact ⟨plan.snoc other, h.append⟩
    · have same : final.lastRunAt.getD final.createdAt = job.lastRunAt.getD job.createdAt := by
        obtain ⟨_, -, rfl⟩ := Job.apply_eq_ok.mp moved
        rfl
      refine ⟨same ▸ plan.snoc other, h.apply moved fun inOrder => ?_⟩
      obtain ⟨front, e', back, rfl, plans, -⟩ := plan
      have member : e' ∈ front ++ e' :: back := List.mem_append_right _ List.mem_cons_self
      exact ⟨inOrder.front.since_of_mem member plans.jobTime?,
        inOrder.le member plans.jobTime? (List.mem_singleton_self e) registers.jobTime?⟩
  | fired fires moved => exact absurd (Or.inl ⟨_, fires, rfl⟩) (other _ _)

/-- A job that a run from the empty store leaves waits by the last plan for it. -/
theorem Run.waits (run : Run {} es s) (h : s.jobs.get? name = some job) :
    ∃ x planned, PlannedBy es name (job.lastRunAt.getD job.createdAt) x ∧ Waits es job x planned := by
  induction es using List.reverseRecOn generalizing s job with
  | nil =>
    rw [(Run.nil_iff.mp run).getJob] at h
    cases h
  | append_singleton es e ih =>
    obtain ⟨front, last⟩ := Run.split_iff.mp run
    rw [(Run.nil_iff.mp last).getJob] at h
    cases hbefore : e.before.jobs.get? name with
    | none =>
      have turn := e.turns name
      rw [h, hbefore] at turn
      cases turn with
      | registered registers moved =>
        cases moved with
        | defined hfirst _ begin moved =>
          rcases begin with ⟨⟨⟩⟩ | ⟨-, id, made⟩
          obtain ⟨never, createdAt, planned, waits⟩ := waits_of_create (es ++ [e]) made moved
          rw [never, createdAt]
          exact ⟨_, planned, .last (Or.inr ⟨hbefore, _, _, registers, hfirst, rfl⟩), waits⟩
    | some before =>
      by_cases fires : ∃ t f, e.Fires name t f
      · obtain ⟨t, f, fires⟩ := fires
        obtain ⟨_, _, _, -, moved, stored⟩ := fires.moved
        obtain rfl := Option.some.inj (stored.symm.trans h)
        obtain ⟨lastRunAt, planned, waits⟩ := waits_of_fire (es ++ [e]) moved
        rw [lastRunAt]
        exact ⟨_, planned, .last (Or.inl ⟨f, fires, rfl⟩), waits⟩
      · have other : ∀ t y, ¬e.Plans name t y := by
          rintro t y (⟨f, fired, -⟩ | ⟨absent, -⟩)
          · exact fires ⟨t, f, fired⟩
          · rw [hbefore] at absent
            cases absent
        obtain ⟨next, stored, turn⟩ := Event.job_after hbefore
        obtain rfl := Option.some.inj (stored.symm.trans h)
        obtain ⟨x, planned, plan, waits⟩ := ih front hbefore
        exact ⟨x, planned, waits.step plan turn other⟩

/-- A job that is to fire every minute, and is registered again to fire every hour. -/
def Call.rescheduled : List Call :=
  registered ++ [.upsert JobId.made [.plain "a" .everyHour] ⟨30, 0⟩]

/-- A job that is registered before year 0, and again in 1970. -/
def Call.ancient : List Call :=
  [.upsert JobId.made [.plain "a" .everyMinute] ⟨-62200000000, 0⟩,
    .upsert JobId.made [.plain "a" .everyMinute] .epoch]

/-- A job waits for the first time of the expression by which its next fire was planned, after its last fire, or after it
    was made if it has not fired. If the expression is still the same and clocks have not gone back, that time is there
    whenever the job is active, and a tick fires the job only when it has come. -/
theorem nextRunAt_planned (run : Run {} es s) (h : s.jobs.get? name = some job) :
    ∃ x, PlannedBy es name (job.lastRunAt.getD job.createdAt) x ∧
      (∀ later, (x.next (job.lastRunAt.getD job.createdAt) : Outcome Refusal (Option Instant)) = .ok (some later) →
        job.nextRunAt = later) ∧
      (InOrder es → job.expression = x →
        (job.status = .active →
          (x.next (job.lastRunAt.getD job.createdAt) : Outcome Refusal (Option Instant)) = .ok (some job.nextRunAt)) ∧
        ∀ (tick : Event) (now : Instant) (f : FiredJob), tick.before = s → tick.Fires name now f → ∃ later,
          (x.next (job.lastRunAt.getD job.createdAt) : Outcome Refusal (Option Instant)) = .ok (some later) ∧
            job.lastRunAt.getD job.createdAt < later ∧ later ≤ now) := by
  obtain ⟨x, planned, plan, asked, waits, goes⟩ := run.waits h
  have there : InOrder es → job.expression = x → job.status = .active →
      (x.next (job.lastRunAt.getD job.createdAt) : Outcome Refusal (Option Instant)) = .ok (some job.nextRunAt) := by
    intro inOrder same active
    obtain ⟨later, hlater⟩ := Option.ne_none_iff_exists'.mp (goes inOrder active same)
    rw [asked, hlater, waits later hlater]
  refine ⟨x, plan, fun later next => waits later (Except.ok.inj (asked.symm.trans next)), fun inOrder same =>
    ⟨there inOrder same, ?_⟩⟩
  rintro tick now f rfl fires
  obtain ⟨before, _, _, stored, moved, -⟩ := fires.moved
  obtain rfl := Option.some.inj (stored.symm.trans h)
  obtain ⟨active, reached⟩ := Job.isDue_of_fire moved
  have next := there inOrder same active
  exact ⟨before.nextRunAt, next, Expression.lt_of_next next, reached⟩

theorem nextRunAt_planned_registered :
    ∃ (es : List Event) (s : Store) (job : Job) (tick : Event) (f : FiredJob),
      Run {} es s ∧ s.jobs.get? "a" = some job ∧ InOrder es ∧ job.status = .active ∧
      (Expression.everyMinute.next .epoch : Outcome Refusal (Option Instant)) = .ok (some job.nextRunAt) ∧
      tick.before = s ∧ tick.Fires "a" ⟨100, 0⟩ f ∧ ∃ later,
        (Expression.everyMinute.next .epoch : Outcome Refusal (Option Instant)) = .ok (some later) ∧
          .epoch < later ∧ later ≤ ⟨100, 0⟩ := by
  have run : Run {} [_] _ := Run.of_calls Call.registered {}
  have stored : (Call.afterAll Call.registered {}).jobs.get? "a" = some _ := rfl
  have inOrder : InOrder (Call.events Call.registered {}) :=
    ⟨List.pairwise_singleton _ _, fun t ht => List.mem_singleton.mp ht ▸ by decide⟩
  obtain ⟨x, ⟨front, e, back, split, plans, -⟩, -, same⟩ := nextRunAt_planned run stored
  -- The only call of the run is the registration, so the plan is by its expression.
  have expression : Expression.everyMinute = x := by
    have member : e ∈ front ++ e :: back := List.mem_append_right _ List.mem_cons_self
    rw [← split] at member
    obtain rfl := List.mem_singleton.mp member
    obtain ⟨f, ⟨_, _, _, _, ⟨⟩, -⟩, -⟩ | ⟨-, specs, first, ⟨-, _, _, _, ⟨⟩, -, -, rfl⟩, hfirst, rfl⟩ := plans
    exact congrArg JobSpec.expression (Option.some.inj hfirst)
  obtain ⟨f, fires, -⟩ : ∃ f, Event.Fires ⟨.fire TaskId.made ⟨100, 0⟩ 1 3, Call.afterAll Call.registered {}⟩ "a" ⟨100, 0⟩
      f ∧ f.fire.exhausted = false := Event.fires_of_answer (by decide +kernel)
  obtain ⟨waits, ticks⟩ := same inOrder expression
  subst expression
  exact ⟨_, _, _, _, f, run, stored, inOrder, rfl, waits rfl, rfl, fires, ticks _ _ f rfl fires⟩

/-- Under another expression than that of the plan, the time is none of the job's schedule, and a tick at that time fires
    the job. Where the plan was made before year 0 there was no time to plan, and the job has that of its making. In both
    runs clocks do not go back. -/
theorem nextRunAt_not_of_expression :
    (InOrder (Call.events Call.rescheduled {}) ∧
      ∃ job f, (Call.afterAll Call.rescheduled {}).jobs.get? "a" = some job ∧ job.status = .active ∧ job.lastRunAt = none ∧
        (job.expression.next job.createdAt : Outcome Refusal (Option Instant)) = .ok (some ⟨3600, 0⟩) ∧
        job.nextRunAt = ⟨60, 0⟩ ∧
        Event.Fires ⟨.fire TaskId.made ⟨60, 0⟩ 1 3, Call.afterAll Call.rescheduled {}⟩ "a" ⟨60, 0⟩ f) ∧
    ((Call.events Call.ancient {}).filterMap (·.call.jobTime?)).Pairwise (fun a b => a ≤ b) ∧
      ∃ job, (Call.afterAll Call.ancient {}).jobs.get? "a" = some job ∧ job.status = .active ∧ job.lastRunAt = none ∧
        (job.expression.next job.createdAt : Outcome Refusal (Option Instant)) = .ok none ∧
        job.nextRunAt = job.createdAt := by
  have inOrder : InOrder (Call.events Call.rescheduled {}) := ⟨by decide, by decide⟩
  have ordered : ((Call.events Call.ancient {}).filterMap (·.call.jobTime?)).Pairwise fun a b => a ≤ b := by decide
  obtain ⟨f, fires, -⟩ : ∃ f, Event.Fires ⟨.fire TaskId.made ⟨60, 0⟩ 1 3, Call.afterAll Call.rescheduled {}⟩ "a" ⟨60, 0⟩
      f ∧ f.fire.exhausted = false := Event.fires_of_answer (by decide +kernel)
  exact ⟨⟨inOrder, _, f, rfl, rfl, rfl, rfl, rfl, fires⟩, ordered, _, rfl, rfl, rfl, rfl, rfl⟩

end Store
end DurableQueue
