import DurableQueue.Uuid

/-! The identifiers of tasks and of cron jobs: the same kind of number, kept apart by their types. New identifiers grow:
    each is greater than those made before it. -/

namespace DurableQueue

/-- The first of the identifiers that are made rather than given. -/
def firstMade : Nat := 0x019a0000000070008000000000000000

/-- The identifier of a task. -/
structure TaskId where
  uuid : Uuid
  deriving DecidableEq, Repr, Inhabited

/-- The identifier of a cron job. -/
structure JobId where
  uuid : Uuid
  deriving DecidableEq, Repr, Inhabited

namespace TaskId

/-- The `n`-th identifier that is made. -/
def made (n : Nat) : TaskId := ⟨⟨.ofNat 128 (firstMade + n)⟩⟩

/-- The place in the order of identifiers. -/
def rank (id : TaskId) : Nat := id.uuid.bits.toNat

instance : LT TaskId := ⟨fun a b => a.rank < b.rank⟩
instance (a b : TaskId) : Decidable (a < b) := inferInstanceAs (Decidable (a.rank < b.rank))

def text (id : TaskId) : String := id.uuid.text

theorem rank_injective {a b : TaskId} (h : a.rank = b.rank) : a = b := by
  obtain ⟨⟨a⟩⟩ := a
  obtain ⟨⟨b⟩⟩ := b
  have : a = b := BitVec.eq_of_toNat_eq h
  rw [this]

end TaskId

namespace JobId

/-- The `n`-th identifier that is made. -/
def made (n : Nat) : JobId := ⟨⟨.ofNat 128 (firstMade + n)⟩⟩

def text (id : JobId) : String := id.uuid.text

end JobId
end DurableQueue
