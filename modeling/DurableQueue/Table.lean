/-! Tables: rows in the order in which their keys came, no two with the same key. The key is part of the row. -/

namespace DurableQueue

/-- Rows with distinct keys. -/
structure Table {κ α : Type} (key : α → κ) where
  rows : List α
  distinct : (rows.map key).Nodup

namespace Table

variable {κ α : Type} {key : α → κ}

@[ext] theorem ext {a b : Table key} (h : a.rows = b.rows) : a = b := by
  cases a; cases b; cases h; rfl

instance [DecidableEq α] : DecidableEq (Table key) := fun a b =>
  if h : a.rows = b.rows then isTrue (ext h) else isFalse fun e => h (e ▸ rfl)

/-- No rows. -/
def empty : Table key := ⟨[], List.nodup_nil⟩

instance : Inhabited (Table key) := ⟨empty⟩

variable [DecidableEq κ]

/-- The row with a key. -/
def get? (t : Table key) (k : κ) : Option α := t.rows.find? (key · = k)

/-- Whether there is a row with a key. -/
def contains (t : Table key) (k : κ) : Bool := t.rows.any (key · = k)

theorem contains_iff {t : Table key} {k : κ} : t.contains k = true ↔ k ∈ t.rows.map key := by
  simp [contains, List.mem_map]

theorem key_of_get? {t : Table key} {k : κ} {a : α} (h : t.get? k = some a) : key a = k := by
  simpa using List.find?_some h

theorem mem_of_get? {t : Table key} {k : κ} {a : α} (h : t.get? k = some a) : a ∈ t.rows :=
  List.mem_of_find?_eq_some h

/-- Puts a row in the place of the one with its key. -/
def replaceIn (key : α → κ) (a : α) (rows : List α) : List α := rows.map fun b => if key b = key a then a else b

theorem map_key_replaceIn (a : α) (rows : List α) : (replaceIn key a rows).map key = rows.map key := by
  simp only [replaceIn, List.map_map]
  refine List.map_congr_left fun b _ => ?_
  simp only [Function.comp_apply]
  split
  · next h => exact h.symm
  · rfl

/-- Stores a row: in the place of the row with its key, or behind all others. -/
def put (t : Table key) (a : α) : Table key :=
  if h : t.contains (key a) = true then ⟨replaceIn key a t.rows, by rw [map_key_replaceIn]; exact t.distinct⟩
  else
    ⟨t.rows ++ [a], by
      have fresh : key a ∉ t.rows.map key := fun m => h (contains_iff.2 m)
      rw [List.map_append, List.nodup_append]
      exact ⟨t.distinct, List.nodup_cons.2 ⟨List.not_mem_nil, List.nodup_nil⟩,
        fun x hx y hy e => fresh (by rw [List.mem_singleton.1 hy] at e; exact e ▸ hx)⟩⟩

end Table
end DurableQueue
