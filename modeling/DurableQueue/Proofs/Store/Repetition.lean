import DurableQueue.Proofs.Store.Tasks

/-! Calls that are repeated with nothing in between. The tables of a store promise no order: for each call they may give
    out their rows in another one. Repeated calls may differ in what they take from elsewhere, such as new identifiers, so
    it is left open which calls may be made on a store. -/

namespace DurableQueue
namespace Store

/-- The same store, as its tables may give out their rows the next time. -/
structure Reordered (s s' : Store) : Prop where
  tasks : s'.tasks.rows.Perm s.tasks.rows
  jobs : s'.jobs.rows.Perm s.jobs.rows
  poisoned : s'.poisoned = s.poisoned

/-- Calls one after the other, each of which may be made on the store that it finds, and their answers. -/
inductive Repeated {α : Type} (may : Store → StoreM α → Prop) : Store → List (Outcome StoreFault α) → Store → Prop where
  | nil (s : Store) : Repeated may s [] s
  | cons {s found s' : Store} {call : StoreM α} {answers : List (Outcome StoreFault α)} (order : Reordered s found)
      (made : may found call) (tail : Repeated may (call found).2 answers s') :
      Repeated may s ((call found).1 :: answers) s'

variable {α : Type} {may : Store → StoreM α → Prop} {s s' s'' : Store} {answers : List (Outcome StoreFault α)}

namespace Reordered

theorem refl (s : Store) : Reordered s s := ⟨.refl _, .refl _, rfl⟩

theorem trans (h : Reordered s s') (h' : Reordered s' s'') : Reordered s s'' where
  tasks := h'.tasks.trans h.tasks
  jobs := h'.jobs.trans h.jobs
  poisoned := h'.poisoned.trans h.poisoned

theorem getTask (h : Reordered s s') (id : TaskId) : s'.tasks.get? id = s.tasks.get? id := Table.get?_perm h.tasks id

theorem getJob (h : Reordered s s') (name : String) : s'.jobs.get? name = s.jobs.get? name := Table.get?_perm h.jobs name

end Reordered

namespace Repeated

/-- A poisoned store refuses call after call, and stays as it is. -/
theorem refused (closed : ∀ s call, may s call → s.poisoned = true → call s = (.error (.refused .poisoned), s))
    (run : Repeated may s answers s') (poisoned : s.poisoned = true) :
    (∀ answer ∈ answers, answer = .error (.refused .poisoned)) ∧ Reordered s s' := by
  induction run with
  | nil s => exact ⟨nofun, .refl s⟩
  | cons order made _ ih =>
    have found := order.poisoned.trans poisoned
    rw [closed _ _ made found] at ih ⊢
    obtain ⟨all, rest⟩ := ih found
    exact ⟨List.forall_mem_cons.mpr ⟨rfl, all⟩, order.trans rest⟩

end Repeated
end Store
end DurableQueue
