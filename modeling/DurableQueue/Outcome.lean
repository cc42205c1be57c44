/-! How a call can end without an answer: a rule refuses it for a stated cause, or it crashes, which nothing explains and
    no caller handles. -/

namespace DurableQueue

/-- Why there is no answer. -/
inductive Halt (ε : Type) where
  /-- A rule says no. -/
  | refused (cause : ε)
  /-- The call ended in the middle: a time has left the calendar, or a limit of the machine has been passed. -/
  | crashed
  deriving DecidableEq, Repr

/-- An answer, or the reason that there is none. -/
abbrev Outcome (ε α : Type) := Except (Halt ε) α

namespace Halt

/-- The same end with its cause seen from another layer. -/
def map {ε ε' : Type} (f : ε → ε') : Halt ε → Halt ε'
  | refused cause => refused (f cause)
  | crashed => crashed

end Halt

namespace Outcome

/-- Refuses for a cause. -/
def refuse {ε α : Type} (cause : ε) : Outcome ε α := .error (.refused cause)

/-- Ends in the middle. -/
def crash {ε α : Type} : Outcome ε α := .error .crashed

/-- A check that only refuses, as part of a call that may also crash. -/
def ofExcept {ε α : Type} : Except ε α → Outcome ε α
  | .ok a => .ok a
  | .error cause => .error (.refused cause)

/-- The value, or a crash where there is none. -/
def ofOption {ε α : Type} : Option α → Outcome ε α
  | some a => .ok a
  | none => .error .crashed

/-- The same outcome with its cause seen from another layer. -/
def mapCause {ε ε' α : Type} (f : ε → ε') : Outcome ε α → Outcome ε' α
  | .ok a => .ok a
  | .error h => .error (h.map f)

end Outcome

/-! ### Answers -/

theorem bind_eq_ok_iff {ε α β : Type} {x : Except ε α} {f : α → Except ε β} {b : β} :
    x >>= f = .ok b ↔ ∃ a, x = .ok a ∧ f a = .ok b := by
  cases x <;> simp [bind, Except.bind]

theorem bind_eq_error_iff {ε α β : Type} {x : Except ε α} {f : α → Except ε β} {e : ε} :
    x >>= f = .error e ↔ x = .error e ∨ ∃ a, x = .ok a ∧ f a = .error e := by
  cases x <;> simp [bind, Except.bind]

theorem mapError_eq_ok_iff {ε ε' α : Type} {x : Except ε α} {f : ε → ε'} {a : α} : x.mapError f = .ok a ↔ x = .ok a := by
  cases x with
  | error e => exact ⟨nofun, nofun⟩
  | ok b =>
    constructor
    · rintro ⟨⟩
      rfl
    · rintro ⟨⟩
      rfl

end DurableQueue
