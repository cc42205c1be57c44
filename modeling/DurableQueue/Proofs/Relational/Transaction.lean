import DurableQueue.Proofs.Relational.Course
import Mathlib.Data.List.Basic

/-! Transactions whatever the database replies. A call that ends with the first statement that fails does so in a transaction,
    too, with a rollback behind it; and so does a call that is over for another reason. -/

namespace DurableQueue
namespace Relational

open Session

variable {α β : Type} {log : List Exchange}

theorem append_cons_eq_concat {γ : Type} {front rest body : List γ} {x y : γ}
    (h : front ++ x :: rest = body ++ [y]) :
    front = body ∧ x = y ∧ rest = [] ∨ ∃ inner, rest = inner ++ [y] ∧ body = front ++ x :: inner := by
  rcases List.eq_nil_or_concat' rest with rfl | ⟨inner, z, rfl⟩
  · obtain ⟨rfl, same⟩ := List.append_inj' h rfl
    exact Or.inl ⟨rfl, List.singleton_inj.mp same, rfl⟩
  · rw [← List.cons_append, ← List.append_assoc] at h
    obtain ⟨rfl, same⟩ := List.append_inj' h rfl
    rw [List.singleton_inj.mp same]
    exact Or.inr ⟨inner, rfl, rfl⟩

/-! ### Faults of the database -/

/-- Statements in the middle of a transaction, none of which has failed. -/
def Answered (log : List Exchange) : Prop := ∀ e ∈ log, e.statement.isControl = false ∧ ∃ answer, e.reply = .ok answer

theorem Answered.append {front back : List Exchange} (hf : Answered front) (hb : Answered back) :
    Answered (front ++ back) := by
  intro e he
  rcases List.mem_append.mp he with he | he
  · exact hf e he
  · exact hb e he

theorem Answered.cons {s : Statement} {answer : Answer} (inner : s.isControl = false) (h : Answered log) :
    Answered (⟨s, .ok answer⟩ :: log) := by
  intro e he
  rcases List.mem_cons.mp he with rfl | he
  · exact ⟨inner, answer, rfl⟩
  · exact h e he

theorem Answered.tail {e : Exchange} (h : Answered (e :: log)) : Answered log := fun x hx => h x (List.mem_cons_of_mem e hx)

theorem Answered.absurd {s : Statement} {fault : SqlFault} (h : Answered log) : ⟨s, .error fault⟩ ∉ log := by
  intro he
  obtain ⟨-, _, ⟨⟩⟩ := h _ he

/-- A call ends with the first statement that fails, and tells its fault. -/
inductive Ended (name : Statement → String) : List Exchange → Except (Halt StoreFault) α → Prop where
  | answered {log : List Exchange} {r : Except (Halt StoreFault) α} (h : Answered log) : Ended name log r
  | failed {front : List Exchange} {s : Statement} {fault : SqlFault} (h : Answered front)
    (inner : s.isControl = false) : Ended name (front ++ [⟨s, .error fault⟩]) (.error (.refused (fault.storeFault (name s))))

variable {name : Statement → String}

theorem Ended.answered_of_ok {a : α} (h : Ended name log (.ok a)) : Answered log := by
  cases h with
  | answered h => exact h

theorem Ended.inner {r : Except (Halt StoreFault) α} {e : Exchange} (h : Ended name log r) (he : e ∈ log) :
    e.statement.isControl = false := by
  cases h with
  | answered h => exact (h e he).1
  | failed h inner =>
    rcases List.mem_append.mp he with he | he
    · exact (h e he).1
    · rw [List.mem_singleton.mp he]
      exact inner

theorem Ended.of_failed {front rest : List Exchange} {s : Statement} {fault : SqlFault} {r : Except (Halt StoreFault) α}
    (h : Ended name (front ++ ⟨s, .error fault⟩ :: rest) r) :
    rest = [] ∧ r = .error (.refused (fault.storeFault (name s))) := by
  generalize hlog : front ++ ⟨s, .error fault⟩ :: rest = log at h
  cases h with
  | answered h =>
    subst hlog
    exact absurd (List.mem_append_right _ List.mem_cons_self) h.absurd
  | failed h =>
    rcases append_cons_eq_concat hlog with ⟨-, same, rfl⟩ | ⟨inner, -, rfl⟩
    · cases same
      exact ⟨rfl, rfl⟩
    · exact absurd (List.mem_append_right _ List.mem_cons_self) h.absurd

/-- Whatever a database replies, the call ends with the first statement that fails. -/
def Blunt (name : Statement → String) (call : Session α) : Prop := ∀ log r, Course call log r → Ended name log r

namespace Blunt

theorem pure (a : α) : Blunt name (pure a : Session α) := by
  intro log r course
  obtain ⟨rfl, -⟩ := course_pure_iff.mp course
  exact .answered nofun

theorem throw (h : Halt StoreFault) : Blunt name (throw h : Session α) := by
  intro log r course
  obtain ⟨rfl, -⟩ := course_throw_iff.mp course
  exact .answered nofun

theorem ofExcept (x : Except StoreFault α) : Blunt name (ofExcept x) := by
  cases x with
  | ok a => exact pure a
  | error fault => exact throw _

theorem ofOutcome (x : Outcome Refusal α) : Blunt name (ofOutcome x) := by
  cases x with
  | ok a => exact pure a
  | error h => exact throw _

theorem bind {call : Session β} {f : β → Session α} (head : Blunt name call) (tail : ∀ b, Blunt name (f b)) :
    Blunt name (call >>= f) := by
  intro log r course
  rcases course_bind_iff.mp course with ⟨h, first, rfl⟩ | ⟨front, b, back, rfl, first, second⟩
  · generalize hr : (Except.error h : Except (Halt StoreFault) β) = r at first
    cases head _ _ first with
    | answered h => exact .answered h
    | failed h inner =>
      cases hr
      exact .failed h inner
  · have hfront := (head _ _ first).answered_of_ok
    cases tail b _ _ second with
    | answered h => exact .answered (hfront.append h)
    | failed h inner =>
      rw [← List.append_assoc]
      exact .failed (hfront.append h) inner

theorem query_bind {s : Statement} {doing : String} {f : Answer → Session α} (inner : s.isControl = false)
    (named : name s = doing) (tail : ∀ answer, Blunt name (f answer)) : Blunt name (query doing s >>= f) := by
  intro log r course
  rcases course_query_bind_iff.mp course with ⟨fault, rfl, rfl⟩ | ⟨answer, rest, rfl, second⟩
  · subst named
    rw [← List.nil_append [_]]
    exact .failed nofun inner
  · cases tail answer _ _ second with
    | answered h => exact .answered (h.cons inner)
    | failed h last =>
      rw [← List.cons_append]
      exact .failed (h.cons inner) last

/-- A transaction ends with the first statement that fails, or with a rollback after it. -/
theorem inTransaction {call : Session α} (blunt : Blunt name call) (opens : name .begin = "begin_transaction")
    (closes : name .commit = "commit_transaction") {front rest : List Exchange} {s : Statement} {fault : SqlFault}
    {r : Except (Halt StoreFault) α} (course : Course (inTransaction call) (front ++ ⟨s, .error fault⟩ :: rest) r)
    (sent : s ≠ .rollback) :
    rest.map (·.statement) <+: [.rollback] ∧ r = .error (.refused (fault.storeFault (name s))) := by
  rcases course_inTransaction_iff.mp course with
    ⟨_, hlog, rfl⟩ | ⟨opened, body, ⟨h, reply, inner, rfl, hlog⟩ | ⟨a, reply, inner, hlog, rfl⟩⟩
  · rw [← List.nil_append [_]] at hlog
    rcases append_cons_eq_concat hlog with ⟨-, same, rfl⟩ | ⟨_, -, hbody⟩
    · cases same
      exact ⟨List.nil_prefix, by rw [opens]⟩
    · cases List.append_ne_nil_of_right_ne_nil _ (List.cons_ne_nil _ _) hbody.symm
  · rcases append_cons_eq_concat hlog with ⟨-, same, -⟩ | ⟨back, rfl, hbody⟩
    · cases same
      exact absurd rfl sent
    · cases front with
      | nil => cases hbody
      | cons x front =>
        obtain ⟨rfl, rfl⟩ := List.cons.inj hbody
        obtain ⟨rfl, told⟩ := (blunt _ _ inner).of_failed
        exact ⟨List.prefix_rfl, told⟩
  · rcases append_cons_eq_concat hlog with ⟨-, same, rfl⟩ | ⟨back, -, hbody⟩
    · cases same
      exact ⟨List.nil_prefix, by rw [closes]; rfl⟩
    · have mem : ⟨s, .error fault⟩ ∈ ⟨.begin, .ok opened⟩ :: body := by
        rw [hbody]
        exact List.mem_append_right _ List.mem_cons_self
      rcases List.mem_cons.mp mem with ⟨⟨⟩⟩ | within
      exact absurd within (blunt _ _ inner).answered_of_ok.absurd

/-- A commit is sent only when the call has come to its end. -/
theorem committed {call : Session α} (blunt : Blunt name call) {reply : Reply} {r : Except (Halt StoreFault) α}
    (course : Course (Session.inTransaction call) log r) (mem : ⟨.commit, reply⟩ ∈ log) :
    ∃ opened body a, log = ⟨.begin, .ok opened⟩ :: body ++ [⟨.commit, reply⟩] ∧ Answered body ∧
      Course call body (.ok a) := by
  have alien {body : List Exchange} {r : Except (Halt StoreFault) α} (inner : Course call body r) :
      ⟨.commit, reply⟩ ∉ body := by
    intro mem
    cases (blunt _ _ inner).inner mem
  rcases course_inTransaction_iff.mp course with
    ⟨_, rfl, -⟩ | ⟨opened, body, ⟨h, taken, inner, -, rfl⟩ | ⟨a, given, inner, rfl, -⟩⟩
  · simp at mem
  · rw [List.mem_append, List.mem_cons, List.mem_singleton] at mem
    rcases mem with (⟨⟨⟩⟩ | mem) | ⟨⟨⟩⟩
    exact absurd mem (alien inner)
  · rw [List.mem_append, List.mem_cons, List.mem_singleton] at mem
    rcases mem with (⟨⟨⟩⟩ | mem) | ⟨⟨⟩⟩
    · exact absurd mem (alien inner)
    · exact ⟨opened, body, a, rfl, (blunt _ _ inner).answered_of_ok, inner⟩

end Blunt

/-! ### Answers that stand in the way -/

/-- Once this has been exchanged, the call is over. -/
def Halts (call : Session α) (front : List Exchange) (h : Halt StoreFault) : Prop :=
  ∀ rest r, Course call (front ++ rest) r → rest = [] ∧ r = .error h

/-- What is neither the first nor the last statement of a transaction belongs to the call inside. -/
theorem course_inTransaction_inner {call : Session α} {front middle rest : List Exchange}
    {r : Except (Halt StoreFault) α} (course : Course (inTransaction call) (front ++ (middle ++ rest)) r)
    (some : middle ≠ []) (inner : ∀ e ∈ middle, e.statement.isControl = false) :
    ∃ opened before after r', front = opened :: before ∧ Course call (before ++ (middle ++ after)) r' ∧
      ∀ h, after = [] → r' = .error h → rest.map (·.statement) = [.rollback] ∧ r = .error h := by
  obtain rfl | ⟨init, e, rfl⟩ := List.eq_nil_or_concat' middle
  · exact absurd rfl some
  have control := inner e (List.mem_append_right _ (List.mem_singleton_self e))
  rw [List.append_assoc, ← List.append_assoc, List.singleton_append] at course
  -- the exchange that opens the transaction is not in the middle
  have opening {opened : Exchange} {body after : List Exchange} (opens : opened.statement.isControl = true)
      (h : opened :: body = front ++ init ++ e :: after) :
      ∃ before, front = opened :: before ∧ body = before ++ (init ++ [e] ++ after) := by
    cases front with
    | nil =>
      cases init with
      | nil =>
        obtain ⟨rfl, -⟩ := List.cons.inj h
        cases opens.symm.trans control
      | cons x init =>
        obtain ⟨rfl, -⟩ := List.cons.inj h
        cases opens.symm.trans (inner opened (List.mem_cons_self))
    | cons x before =>
      obtain ⟨rfl, rfl⟩ := List.cons.inj h
      exact ⟨before, rfl, by simp⟩
  rcases course_inTransaction_iff.mp course with
    ⟨_, hlog, rfl⟩ | ⟨opened, body, ⟨h, reply, first, rfl, hlog⟩ | ⟨a, reply, first, hlog, rfl⟩⟩
  · rw [← List.nil_append [_]] at hlog
    rcases append_cons_eq_concat hlog with ⟨-, rfl, -⟩ | ⟨_, -, hbody⟩
    · cases control
    · cases List.append_ne_nil_of_right_ne_nil _ (List.cons_ne_nil _ _) hbody.symm
  · rcases append_cons_eq_concat hlog with ⟨-, rfl, -⟩ | ⟨after, rfl, hbody⟩
    · cases control
    · obtain ⟨before, rfl, rfl⟩ := opening rfl hbody
      refine ⟨_, before, after, _, rfl, first, ?_⟩
      rintro _ rfl ⟨⟩
      exact ⟨rfl, rfl⟩
  · rcases append_cons_eq_concat hlog with ⟨-, rfl, -⟩ | ⟨after, rfl, hbody⟩
    · cases control
    · obtain ⟨before, rfl, rfl⟩ := opening rfl hbody
      exact ⟨_, before, after, _, rfl, first, nofun⟩

/-- In a transaction a call that is over is taken back. -/
theorem Halts.inTransaction {call : Session α} {front middle rest : List Exchange} {h : Halt StoreFault}
    {r : Except (Halt StoreFault) α}
    (halts : ∀ opened before, front = opened :: before → Halts call (before ++ middle) h)
    (some : middle ≠ []) (inner : ∀ e ∈ middle, e.statement.isControl = false)
    (course : Course (Session.inTransaction call) (front ++ middle ++ rest) r) :
    rest.map (·.statement) <+: [.rollback] ∧ r = .error h := by
  rw [List.append_assoc] at course
  obtain ⟨opened, before, after, r', rfl, within, close⟩ := course_inTransaction_inner course some inner
  rw [← List.append_assoc] at within
  obtain ⟨rfl, rfl⟩ := halts opened before rfl after r' within
  obtain ⟨back, rfl⟩ := close h rfl rfl
  rw [back]
  exact ⟨List.prefix_rfl, rfl⟩

end Relational
end DurableQueue
