import DurableQueue.Outcome
import DurableQueue.Schedule.Next

/-! A cron expression that has been read: its text together with the schedule that the text gives. Two expressions are
    the same when their texts are. -/

namespace DurableQueue

/-- A cron expression. -/
structure Expression where
  /-- The text. -/
  source : String
  /-- When it fires. -/
  schedule : Schedule
  /-- The schedule is the one that the text gives. -/
  reads : Schedule.read source = .ok schedule

namespace Expression

theorem ext_source {a b : Expression} (h : a.source = b.source) : a = b := by
  obtain ⟨s, p, hp⟩ := a
  obtain ⟨t, q, hq⟩ := b
  subst h
  cases hp.symm.trans hq
  rfl

instance : DecidableEq Expression := fun a b =>
  if h : a.source = b.source then isTrue (ext_source h) else isFalse fun e => h (e ▸ rfl)

instance : Repr Expression := ⟨fun e _ => repr e.source⟩

/-- Reads an expression. -/
def read (source : String) : Except Schedule.Fault Expression :=
  match h : Schedule.read source with
  | .ok schedule => .ok ⟨source, schedule, h⟩
  | .error fault => .error fault

/-- The first time after a given one at which the expression fires. The search begins a second later, and a second past
    the end of the calendar cannot be reached. -/
def next {ε : Type} (e : Expression) (t : Instant) : Outcome ε (Option Instant) :=
  match t.add? (.ofSeconds 1) with
  | some _ => .ok (e.schedule.next? t)
  | none => .crash

end Expression
end DurableQueue
