import DurableQueue.Relational.Statement

/-! What a call and a database say to each other. A course of a conversation is one way in which it can go, whatever the
    database replies; courses of a call are taken apart by the parts of the call, and only its statements appear in them. -/

namespace DurableQueue
namespace Relational

/-- A statement that has been sent, and the reply. -/
structure Exchange where
  statement : Statement
  reply : Reply

namespace Dialogue

variable {σ α β : Type}

/-- What a conversation with a database consists of, oldest first. -/
def exchanges (database : σ → Statement → Reply × σ) : Dialogue α → σ → List Exchange
  | done _, _ => []
  | send s next, state =>
    let (reply, state) := database state s
    ⟨s, reply⟩ :: exchanges database (next reply) state

/-- A conversation can go this way, to this end. -/
inductive Course : Dialogue α → List Exchange → α → Prop where
  | done (a : α) : Course (done a) [] a
  | send {s : Statement} {next : Reply → Dialogue α} {reply : Reply} {log : List Exchange} {a : α}
    (rest : Course (next reply) log a) : Course (send s next) (⟨s, reply⟩ :: log) a

theorem course_done_iff {a b : α} {log : List Exchange} : Course (done a) log b ↔ log = [] ∧ b = a := by
  constructor
  · rintro ⟨⟩
    exact ⟨rfl, rfl⟩
  · rintro ⟨rfl, rfl⟩
    exact .done _

theorem course_exchanges (database : σ → Statement → Reply × σ) (d : Dialogue α) (state : σ) :
    Course d (d.exchanges database state) (d.run database state).1 := by
  induction d generalizing state with
  | done a => exact .done a
  | send s next ih => exact .send (ih _ _)

theorem course_bind_iff {d : Dialogue α} {f : α → Dialogue β} {log : List Exchange} {b : β} :
    Course (d.bind f) log b ↔ ∃ front a back, log = front ++ back ∧ Course d front a ∧ Course (f a) back b := by
  -- what has been exchanged falls into two parts where the first conversation is done
  induction d generalizing log with
  | done a =>
    constructor
    · intro h
      exact ⟨[], a, log, rfl, .done a, h⟩
    · rintro ⟨_, _, back, rfl, ⟨⟩, h⟩
      exact h
  | send s next ih =>
    constructor
    · rintro ⟨⟩
      obtain ⟨front, a, back, rfl, head, tail⟩ := (ih _).mp ‹_›
      exact ⟨_, a, back, rfl, .send head, tail⟩
    · rintro ⟨_, a, back, rfl, head, tail⟩
      cases head with
      | send head => exact .send ((ih _).mpr ⟨_, a, back, rfl, head, tail⟩)

end Dialogue

namespace Session

variable {α β : Type} {log : List Exchange}

/-! ### Calls of two parts -/

theorem run_bind (call : Session β) (f : β → Session α) :
    (call >>= f).run = Dialogue.bind call.run (ExceptT.bindCont f) := rfl

theorem run_lift_bind (d : Dialogue β) (f : β → Session α) :
    (ExceptT.lift d >>= f).run = (d.bind fun b => .done (.ok b)).bind (ExceptT.bindCont f) := rfl

theorem ofExcept_ok_bind (b : β) (f : β → Session α) : (ofExcept (.ok b) >>= f) = f b := rfl

theorem ofExcept_error_bind (fault : StoreFault) (f : β → Session α) :
    (ofExcept (.error fault) >>= f) = throw (.refused fault) := rfl

theorem ofOutcome_ok_bind (b : β) (f : β → Session α) : (ofOutcome (.ok b) >>= f) = f b := rfl

theorem ofOutcome_error_bind (h : Halt Refusal) (f : β → Session α) :
    (ofOutcome (.error h) >>= f) = throw (h.map .refused) := rfl

/-! ### Courses -/

def Course (call : Session α) (log : List Exchange) (r : Except (Halt StoreFault) α) : Prop :=
  Dialogue.Course call.run log r

section
variable {r : Except (Halt StoreFault) α}

theorem course_pure_iff {a : α} : Course (pure a) log r ↔ log = [] ∧ r = .ok a := Dialogue.course_done_iff

theorem course_throw_iff {h : Halt StoreFault} : Course (throw h) log r ↔ log = [] ∧ r = .error h :=
  Dialogue.course_done_iff

/-- A call of two parts ends with the first one if that has a fault. -/
theorem course_bind_iff {call : Session β} {f : β → Session α} : Course (call >>= f) log r ↔
    (∃ h, Course call log (.error h) ∧ r = .error h) ∨
      ∃ front b back, log = front ++ back ∧ Course call front (.ok b) ∧ Course (f b) back r := by
  rw [Course, run_bind, Dialogue.course_bind_iff]
  constructor
  · rintro ⟨front, h | b, back, rfl, head, tail⟩
    · obtain ⟨rfl, rfl⟩ := Dialogue.course_done_iff.mp tail
      rw [List.append_nil]
      exact Or.inl ⟨h, head, rfl⟩
    · exact Or.inr ⟨front, b, back, rfl, head, tail⟩
  · rintro (⟨h, head, rfl⟩ | ⟨front, b, back, rfl, head, tail⟩)
    · exact ⟨log, .error h, [], (List.append_nil log).symm, head, .done _⟩
    · exact ⟨front, .ok b, back, rfl, head, tail⟩

theorem course_map_iff {call : Session β} {g : β → α} : Course (call >>= fun b => pure (g b)) log r ↔
    ∃ r', Course call log r' ∧ r = r'.map g := by
  rw [course_bind_iff]
  constructor
  · rintro (⟨h, head, rfl⟩ | ⟨front, b, back, rfl, head, tail⟩)
    · exact ⟨_, head, rfl⟩
    · obtain ⟨rfl, rfl⟩ := course_pure_iff.mp tail
      rw [List.append_nil]
      exact ⟨_, head, rfl⟩
  · rintro ⟨h | b, head, rfl⟩
    · exact Or.inl ⟨h, head, rfl⟩
    · exact Or.inr ⟨log, b, [], (List.append_nil log).symm, head, course_pure_iff.mpr ⟨rfl, rfl⟩⟩

theorem course_lift_bind_iff {d : Dialogue β} {f : β → Session α} : Course (ExceptT.lift d >>= f) log r ↔
    ∃ front b back, log = front ++ back ∧ Dialogue.Course d front b ∧ Course (f b) back r := by
  rw [Course, run_lift_bind, Dialogue.course_bind_iff]
  constructor
  · rintro ⟨_, x, back, rfl, lifted, tail⟩
    obtain ⟨front, b, _, rfl, head, stop⟩ := Dialogue.course_bind_iff.mp lifted
    obtain ⟨rfl, rfl⟩ := Dialogue.course_done_iff.mp stop
    rw [List.append_nil]
    exact ⟨front, b, back, rfl, head, tail⟩
  · rintro ⟨front, b, back, rfl, head, tail⟩
    exact ⟨front, .ok b, back, rfl, Dialogue.course_bind_iff.mpr ⟨front, b, [], by simp, head, .done _⟩, tail⟩

theorem course_ofExcept_bind_iff {x : Except StoreFault β} {f : β → Session α} :
    Course (ofExcept x >>= f) log r ↔
      (∃ fault, x = .error fault ∧ log = [] ∧ r = .error (.refused fault)) ∨ ∃ b, x = .ok b ∧ Course (f b) log r := by
  cases x with
  | error fault =>
    rw [ofExcept_error_bind, course_throw_iff]
    simp
  | ok b =>
    rw [ofExcept_ok_bind]
    simp

theorem course_ofOutcome_bind_iff {x : Outcome Refusal β} {f : β → Session α} :
    Course (ofOutcome x >>= f) log r ↔
      (∃ h, x = .error h ∧ log = [] ∧ r = .error (h.map .refused)) ∨ ∃ b, x = .ok b ∧ Course (f b) log r := by
  cases x with
  | error h =>
    rw [ofOutcome_error_bind, course_throw_iff]
    simp
  | ok b =>
    rw [ofOutcome_ok_bind]
    simp

theorem course_ask_bind_iff {s : Statement} {f : Reply → Session α} :
    Course (ask s >>= f) log r ↔ ∃ reply rest, log = ⟨s, reply⟩ :: rest ∧ Course (f reply) rest r := by
  rw [ask, course_lift_bind_iff]
  constructor
  · rintro ⟨_, b, back, rfl, head, tail⟩
    cases head with
    | send head =>
      obtain ⟨rfl, rfl⟩ := Dialogue.course_done_iff.mp head
      exact ⟨_, back, rfl, tail⟩
  · rintro ⟨reply, rest, rfl, tail⟩
    exact ⟨[⟨s, reply⟩], reply, rest, rfl, .send (.done _), tail⟩

/-- A statement that fails is the end of a call, unless the call asks how it went. -/
theorem course_query_bind_iff {doing : String} {s : Statement} {f : Answer → Session α} :
    Course (query doing s >>= f) log r ↔
      (∃ fault, log = [⟨s, .error fault⟩] ∧ r = .error (.refused (fault.storeFault doing))) ∨
        ∃ answer rest, log = ⟨s, .ok answer⟩ :: rest ∧ Course (f answer) rest r := by
  rw [course_bind_iff]
  constructor
  · rintro (⟨h, head, rfl⟩ | ⟨_, answer, back, rfl, head, tail⟩)
    · obtain ⟨fault | answer, rest, rfl, stop⟩ := course_ask_bind_iff.mp head
      · obtain ⟨rfl, same⟩ := course_throw_iff.mp stop
        cases same
        exact Or.inl ⟨fault, rfl, rfl⟩
      · cases (course_pure_iff.mp stop).2
    · obtain ⟨fault | given, rest, rfl, stop⟩ := course_ask_bind_iff.mp head
      · cases (course_throw_iff.mp stop).2
      · obtain ⟨rfl, same⟩ := course_pure_iff.mp stop
        cases same
        exact Or.inr ⟨answer, back, rfl, tail⟩
  · rintro (⟨fault, rfl, rfl⟩ | ⟨answer, rest, rfl, tail⟩)
    · exact Or.inl ⟨_, course_ask_bind_iff.mpr ⟨_, _, rfl, course_throw_iff.mpr ⟨rfl, rfl⟩⟩, rfl⟩
    · exact Or.inr ⟨[_], answer, rest, rfl, course_ask_bind_iff.mpr ⟨_, _, rfl, course_pure_iff.mpr ⟨rfl, rfl⟩⟩, tail⟩

/-- A transaction cannot be opened, or is taken back after a fault, or comes to its commit. -/
theorem course_inTransaction_iff {call : Session α} : Course (inTransaction call) log r ↔
    (∃ fault, log = [⟨.begin, .error fault⟩] ∧ r = .error (.refused (fault.storeFault "begin_transaction"))) ∨
    ∃ opened body, (∃ h reply, Course call body (.error h) ∧ r = .error h ∧
        log = ⟨.begin, .ok opened⟩ :: body ++ [⟨.rollback, reply⟩]) ∨
      ∃ a reply, Course call body (.ok a) ∧ log = ⟨.begin, .ok opened⟩ :: body ++ [⟨.commit, reply⟩] ∧
        r = (reply.map fun _ => a).mapError fun fault => .refused (fault.storeFault "commit_transaction") := by
  rw [inTransaction, course_query_bind_iff]
  refine or_congr_right ?_
  constructor
  · rintro ⟨opened, _, rfl, tail⟩
    obtain ⟨body, h | a, back, rfl, inner, tail⟩ := course_lift_bind_iff.mp tail
    · obtain ⟨reply, _, rfl, stop⟩ := course_ask_bind_iff.mp tail
      obtain ⟨rfl, rfl⟩ := course_throw_iff.mp stop
      exact ⟨opened, body, Or.inl ⟨h, reply, inner, rfl, rfl⟩⟩
    · refine ⟨opened, body, Or.inr ?_⟩
      obtain ⟨fault, rfl, rfl⟩ | ⟨closed, _, rfl, stop⟩ := course_query_bind_iff.mp tail
      · exact ⟨a, _, inner, rfl, rfl⟩
      · obtain ⟨rfl, rfl⟩ := course_pure_iff.mp stop
        exact ⟨a, _, inner, rfl, rfl⟩
  · rintro ⟨opened, body, ⟨h, reply, inner, rfl, rfl⟩ | ⟨a, fault | closed, inner, rfl, rfl⟩⟩
    · refine ⟨opened, _, rfl, course_lift_bind_iff.mpr ⟨body, .error h, _, rfl, inner, ?_⟩⟩
      exact course_ask_bind_iff.mpr ⟨reply, [], rfl, course_throw_iff.mpr ⟨rfl, rfl⟩⟩
    · refine ⟨opened, _, rfl, course_lift_bind_iff.mpr ⟨body, .ok a, _, rfl, inner, ?_⟩⟩
      exact course_query_bind_iff.mpr (Or.inl ⟨fault, rfl, rfl⟩)
    · refine ⟨opened, _, rfl, course_lift_bind_iff.mpr ⟨body, .ok a, _, rfl, inner, ?_⟩⟩
      exact course_query_bind_iff.mpr (Or.inr ⟨closed, [], rfl, course_pure_iff.mpr ⟨rfl, rfl⟩⟩)

end

end Session
end Relational
end DurableQueue
