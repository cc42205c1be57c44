import DurableQueue.Table

/-! Tables through the rows that are found under their keys. Keys are distinct, so a row is found under its key, storing
    a row changes what is found under one key only, and rows with new keys go behind all others. -/

namespace DurableQueue
namespace Table

variable {κ α : Type} {key : α → κ}

theorem eq_of_key_eq {t : Table key} {a b : α} (ha : a ∈ t.rows) (hb : b ∈ t.rows) (h : key a = key b) : a = b := by
  suffices inj : ∀ rows : List α, (rows.map key).Nodup → a ∈ rows → b ∈ rows → a = b from inj t.rows t.distinct ha hb
  intro rows
  induction rows with
  | nil => exact fun _ m => nomatch m
  | cons c rest ih =>
    intro nodup ma mb
    rw [List.map_cons, List.nodup_cons, List.mem_map] at nodup
    rcases List.mem_cons.mp ma with ea | ra
    · rcases List.mem_cons.mp mb with eb | rb
      · rw [ea, eb]
      · exact absurd ⟨b, rb, by rw [← h, ea]⟩ nodup.1
    · rcases List.mem_cons.mp mb with eb | rb
      · exact absurd ⟨a, ra, by rw [h, eb]⟩ nodup.1
      · exact ih nodup.2 ra rb

/-- Changes every row in its place by a function that keeps the keys. -/
def mapRows (t : Table key) (f : α → α) (keeps : ∀ a, key (f a) = key a) : Table key :=
  ⟨t.rows.map f, by
    have same : t.rows.map (key ∘ f) = t.rows.map key := List.map_congr_left fun a _ => keeps a
    rw [List.map_map, same]
    exact t.distinct⟩

variable [DecidableEq κ]

/-! ### What is found -/

theorem get?_eq_some_iff {t : Table key} {k : κ} {a : α} : t.get? k = some a ↔ a ∈ t.rows ∧ key a = k := by
  refine ⟨fun h => ⟨mem_of_get? h, key_of_get? h⟩, fun ⟨ha, hk⟩ => ?_⟩
  cases h : t.get? k with
  | none => exact absurd hk (by simpa using List.find?_eq_none.mp h a ha)
  | some b => rw [eq_of_key_eq (mem_of_get? h) ha ((key_of_get? h).trans hk.symm)]

theorem get?_key {t : Table key} {a : α} (h : a ∈ t.rows) : t.get? (key a) = some a :=
  get?_eq_some_iff.mpr ⟨h, rfl⟩

theorem get?_eq_none_iff {t : Table key} {k : κ} : t.get? k = none ↔ k ∉ t.rows.map key := by
  simp [get?, List.find?_eq_none, List.mem_map]

theorem get?_perm {t u : Table key} (order : t.rows.Perm u.rows) (k : κ) : t.get? k = u.get? k := by
  apply Option.ext
  intro a
  rw [get?_eq_some_iff, get?_eq_some_iff, order.mem_iff]

theorem get?_mapRows (t : Table key) (f : α → α) (keeps : ∀ a, key (f a) = key a) (k : κ) :
    (t.mapRows f keeps).get? k = (t.get? k).map f := by
  apply Option.ext
  intro a
  rw [get?_eq_some_iff, Option.map_eq_some_iff, mapRows, List.mem_map]
  constructor
  · rintro ⟨⟨b, hb, rfl⟩, rfl⟩
    exact ⟨b, get?_eq_some_iff.mpr ⟨hb, (keeps b).symm⟩, rfl⟩
  · rintro ⟨b, hb, rfl⟩
    obtain ⟨member, same⟩ := get?_eq_some_iff.mp hb
    exact ⟨⟨b, member, rfl⟩, (keeps b).trans same⟩

/-- There is no other row with the key. -/
theorem filter_rows_key {t : Table key} {k : κ} {a : α} (h : t.get? k = some a) : t.rows.filter (key · = k) = [a] := by
  have single : [a].Nodup := List.nodup_cons.mpr ⟨List.not_mem_nil, List.nodup_nil⟩
  have distinct : t.rows.Nodup := (List.pairwise_map.mp t.distinct).imp fun apart same => apart (congrArg key same)
  refine List.perm_singleton.mp ((List.perm_ext_iff_of_nodup ?_ single).mpr fun b => ?_)
  · exact distinct.sublist List.filter_sublist
  · rw [List.mem_filter, decide_eq_true_eq, ← get?_eq_some_iff, h, Option.some.injEq, List.mem_singleton, eq_comm]

/-- A table is known by its keys in their order and by what is found under each of them. -/
theorem ext_get? {t u : Table key} (keys : t.rows.map key = u.rows.map key) (found : ∀ k, t.get? k = u.get? k) : t = u := by
  have length : t.rows.length = u.rows.length := by simpa using congrArg List.length keys
  refine ext (List.ext_getElem length fun i ht hu => ?_)
  have same : key t.rows[i] = key u.rows[i] := by
    have mapped := List.getElem_of_eq keys (by rwa [List.length_map] : i < (t.rows.map key).length)
    rwa [List.getElem_map, List.getElem_map] at mapped
  have both := found (key t.rows[i])
  rw [get?_key (List.getElem_mem ht), same, get?_key (List.getElem_mem hu)] at both
  exact Option.some.inj both

/-! ### Storing -/

theorem rows_put_of_mem {t : Table key} {a : α} (h : key a ∈ t.rows.map key) :
    (t.put a).rows = replaceIn key a t.rows := by
  rw [put, dif_pos (contains_iff.mpr h)]

theorem rows_put_of_not_mem {t : Table key} {a : α} (h : key a ∉ t.rows.map key) :
    (t.put a).rows = t.rows ++ [a] := by
  rw [put, dif_neg (mt contains_iff.mp h)]

theorem map_key_put_of_mem {t : Table key} {a : α} (h : key a ∈ t.rows.map key) :
    (t.put a).rows.map key = t.rows.map key := by
  rw [rows_put_of_mem h, map_key_replaceIn]

/-- A row takes the place of the one that has its key. -/
theorem rows_put_of_split {t : Table key} {a b : α} {front back : List α} (h : t.rows = front ++ b :: back)
    (same : key a = key b) : (t.put a).rows = front ++ a :: back := by
  have distinct := t.distinct
  rw [h, List.map_append, List.map_cons, List.nodup_append, List.nodup_cons] at distinct
  obtain ⟨-, ⟨behind, -⟩, before⟩ := distinct
  have keep : ∀ c ∈ front ++ back, (if key c = key a then a else c) = c := fun c hc => by
    refine if_neg fun e => ?_
    rcases List.mem_append.mp hc with hc | hc
    · exact before _ (List.mem_map_of_mem hc) _ List.mem_cons_self (e.trans same)
    · exact behind (List.mem_map.mpr ⟨c, hc, e.trans same⟩)
  have member : key a ∈ t.rows.map key := by
    rw [h, same]
    exact List.mem_map_of_mem (List.mem_append_right _ List.mem_cons_self)
  rw [rows_put_of_mem member, h, replaceIn, List.map_append, List.map_cons, if_pos same.symm,
    List.map_congr_left fun c hc => keep c (List.mem_append_left _ hc),
    List.map_congr_left fun c hc => keep c (List.mem_append_right _ hc), List.map_id', List.map_id']

theorem mem_rows_put {t : Table key} {a b : α} : b ∈ (t.put a).rows ↔ b = a ∨ b ∈ t.rows ∧ key b ≠ key a := by
  by_cases h : key a ∈ t.rows.map key
  · rw [rows_put_of_mem h, replaceIn, List.mem_map]
    obtain ⟨c, hc, hk⟩ := List.mem_map.mp h
    constructor
    · rintro ⟨d, hd, rfl⟩
      by_cases e : key d = key a
      · exact Or.inl (if_pos e)
      · rw [if_neg e]
        exact Or.inr ⟨hd, e⟩
    · rintro (rfl | ⟨hb, hne⟩)
      · exact ⟨c, hc, if_pos hk⟩
      · exact ⟨b, hb, if_neg hne⟩
  · rw [rows_put_of_not_mem h, List.mem_append, List.mem_singleton]
    constructor
    · rintro (hb | rfl)
      · exact Or.inr ⟨hb, fun e => h (e ▸ List.mem_map_of_mem hb)⟩
      · exact Or.inl rfl
    · rintro (rfl | ⟨hb, -⟩)
      · exact Or.inr rfl
      · exact Or.inl hb

theorem get?_put (t : Table key) (a : α) (k : κ) : (t.put a).get? k = if key a = k then some a else t.get? k := by
  apply Option.ext
  intro b
  rw [get?_eq_some_iff, mem_rows_put]
  by_cases h : key a = k
  · rw [if_pos h, Option.some.injEq]
    constructor
    · rintro ⟨rfl | ⟨-, hne⟩, hk⟩
      · rfl
      · exact absurd (hk.trans h.symm) hne
    · rintro rfl
      exact ⟨Or.inl rfl, h⟩
  · rw [if_neg h, get?_eq_some_iff]
    constructor
    · rintro ⟨rfl | ⟨hb, -⟩, hk⟩
      · exact absurd hk h
      · exact ⟨hb, hk⟩
    · rintro ⟨hb, hk⟩
      exact ⟨Or.inr ⟨hb, fun e => h (e.symm.trans hk)⟩, hk⟩

/-- Two rows that take the places of others do so in either order. -/
theorem put_comm {t : Table key} {a b : α} (ha : key a ∈ t.rows.map key) (hb : key b ∈ t.rows.map key)
    (ne : key a ≠ key b) : (t.put a).put b = (t.put b).put a := by
  have ha' : key a ∈ (t.put b).rows.map key := by rwa [rows_put_of_mem hb, map_key_replaceIn]
  have hb' : key b ∈ (t.put a).rows.map key := by rwa [rows_put_of_mem ha, map_key_replaceIn]
  apply ext
  rw [rows_put_of_mem hb', rows_put_of_mem ha', rows_put_of_mem ha, rows_put_of_mem hb, replaceIn, replaceIn,
    replaceIn, replaceIn, List.map_map, List.map_map]
  refine List.map_congr_left fun c _ => ?_
  rw [Function.comp_apply, Function.comp_apply]
  by_cases isA : key c = key a
  · have notB : key c ≠ key b := fun isB => ne (isA.symm.trans isB)
    rw [if_pos isA, if_neg ne, if_neg notB, if_pos isA]
  · by_cases isB : key c = key b
    · rw [if_neg isA, if_pos isB, if_neg ne.symm]
    · rw [if_neg isA, if_neg isB, if_neg isA]

/-- A row that is not chosen, in the place of one that is not chosen, leaves the chosen rows as they are. -/
theorem filter_rows_put {t : Table key} {a b : α} {chosen : α → Bool} (stored : t.get? (key a) = some b)
    (old : chosen b = false) (new : chosen a = false) : (t.put a).rows.filter chosen = t.rows.filter chosen := by
  obtain ⟨front, back, split⟩ := List.append_of_mem (mem_of_get? stored)
  rw [rows_put_of_split split (key_of_get? stored).symm, split, List.filter_append, List.filter_append,
    List.filter_cons_of_neg (Bool.eq_false_iff.mp new), List.filter_cons_of_neg (Bool.eq_false_iff.mp old)]

/-- Storing rows whose keys are new and distinct puts them behind all others. -/
theorem rows_foldl_put {t : Table key} {new : List α} (fresh : ∀ a ∈ new, t.get? (key a) = none)
    (nodup : (new.map key).Nodup) : (new.foldl put t).rows = t.rows ++ new := by
  induction new generalizing t with
  | nil => rw [List.foldl_nil, List.append_nil]
  | cons a rest ih =>
    rw [List.map_cons, List.nodup_cons, List.mem_map] at nodup
    have head := fresh a List.mem_cons_self
    have tail : ∀ b ∈ rest, (t.put a).get? (key b) = none := fun b hb => by
      rw [get?_put, if_neg fun e => nodup.1 ⟨b, hb, e.symm⟩]
      exact fresh b (List.mem_cons_of_mem a hb)
    rw [List.foldl_cons, ih tail nodup.2, rows_put_of_not_mem (get?_eq_none_iff.mp head), List.append_assoc,
      List.singleton_append]

/-- Of rows with distinct keys that are stored one after the other, each is found under its key afterwards. -/
theorem get?_foldl_put {t : Table key} {new : List α} (nodup : (new.map key).Nodup) (k : κ) :
    (new.foldl put t).get? k = (new.find? (key · = k)).or (t.get? k) := by
  induction new generalizing t with
  | nil => rfl
  | cons a rest ih =>
    rw [List.map_cons, List.nodup_cons] at nodup
    rw [List.foldl_cons, ih nodup.2, get?_put]
    by_cases same : key a = k
    · have absent : rest.find? (key · = k) = none := by
        rw [List.find?_eq_none]
        intro b hb hk
        exact nodup.1 (List.mem_map.mpr ⟨b, hb, (of_decide_eq_true hk).trans same.symm⟩)
      rw [if_pos same, absent, List.find?_cons_of_pos (by simpa using same)]
      rfl
    · rw [if_neg same, List.find?_cons_of_neg (by simpa using same)]

end Table
end DurableQueue
