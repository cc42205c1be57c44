import DurableQueue.Proofs.Store.Delay

/-! Calls that concern different tasks commute: in either order they give the same answers and leave the same store. A
    call answers by what it sees of the store and writes at most one row, so two calls commute where neither sees what
    the other writes. The end of an attempt sees one task only. A claim sees the tasks that it could take, and those do
    not include a task that has just been put back, which waits for a time still to come. -/

namespace DurableQueue

/-- The calendar holds the time and the ten minutes after it. -/
def Instant.HasRoom (now : Instant) : Prop := now.InRange ∧ (now.add? (.ofSeconds 600)).isSome = true

instance (now : Instant) : Decidable now.HasRoom :=
  inferInstanceAs (Decidable (now.InRange ∧ (now.add? (.ofSeconds 600)).isSome = true))

section
variable {now earliest : Instant} {t u : Task} {d : Span}

theorem Instant.HasRoom.add? (room : now.HasRoom) (le : d ≤ .ofSeconds 600) : ∃ later, now.add? d = some later :=
  Option.isSome_iff_exists.mp (add?_isSome_of_le room.1 room.2 le)

theorem backoff_bounds (attempts : Nat) : .ofSeconds 1 ≤ backoff attempts ∧ backoff attempts ≤ .ofSeconds 600 := by
  have one : 1 ≤ Nat.pow 2 attempts := Nat.one_le_two_pow
  have least : 1 ≤ min (10 * Nat.pow 2 attempts) 600 := by omega
  have most : min (10 * Nat.pow 2 attempts) 600 ≤ 600 := Nat.min_le_right _ _
  rw [backoff_seconds]
  exact ⟨Nat.mul_le_mul_right _ least, Nat.mul_le_mul_right _ most⟩

namespace Task

/-- A task that waits for a later time is not due. -/
theorem isDue_of_add (sum : now.add? d = some earliest) (second : .ofSeconds 1 ≤ d)
    (after : u.runAfter = t.runAfter.later earliest) : u.isDue now = false := by
  obtain ⟨-, rfl⟩ := Instant.add?_eq_some_iff.mp sum
  have waits : now < u.runAfter := by
    rw [after]
    exact Std.lt_of_lt_of_le (Instant.lt_add second) (Instant.le_later_right _ _)
  refine Bool.eq_false_iff.mpr fun due => ?_
  exact (isDue_iff.mp due).2 waits

theorem isDue_of_status (busy : u.status ≠ .pending) : u.isDue now = false :=
  Bool.eq_false_iff.mpr fun due => busy (isDue_iff.mp due).1

end Task
end

namespace Store
open StoreM

/-- Two calls commute at a store: in either order they give the same answers and leave the same store. -/
def Commute {α β : Type} (x : StoreM α) (y : StoreM β) (s : Store) : Prop :=
  (x s).1 = (x (y s).2).1 ∧ (y s).1 = (y (x s).2).1 ∧ (y (x s).2).2 = (x (y s).2).2

/-- The store with a row written, if there is one to write. -/
def write (s : Store) (row : Option Task) : Store := { s with tasks := row.elim s.tasks s.tasks.put }

/-- A call answers by what it sees of an open store, and writes at most one row, in the place of another. -/
structure Acts {α V : Type} (x : StoreM α) (view : Store → V) (answer : V → Outcome StoreFault α)
    (row : V → Option Task) : Prop where
  refused : ∀ s, s.poisoned = true → x s = (.error (.refused .poisoned), s)
  answered : ∀ s, s.poisoned = false → x s = (answer (view s), s.write (row (view s)))
  stored : ∀ s u, row (view s) = some u → u.id ∈ s.tasks.rows.map Task.id

section
variable {α β V W : Type} {s : Store} {id : TaskId} {now : Instant} {pattern : Pattern} {t u : Task}

theorem write_comm {a b : Option Task} (ha : ∀ u, a = some u → u.id ∈ s.tasks.rows.map Task.id)
    (hb : ∀ v, b = some v → v.id ∈ s.tasks.rows.map Task.id) (apart : ∀ u v, a = some u → b = some v → u.id ≠ v.id) :
    (s.write a).write b = (s.write b).write a := by
  cases a with
  | none => rfl
  | some u =>
    cases b with
    | none => rfl
    | some v =>
      have swap := Table.put_comm (ha u rfl) (hb v rfl) (apart u v rfl rfl)
      simp only [write, Option.elim_some, swap]

/-- Two calls commute if neither sees what the other writes, and they do not write the same row. -/
theorem Acts.commute {x : StoreM α} {y : StoreM β} {view : Store → V} {view' : Store → W}
    {answer : V → Outcome StoreFault α} {answer' : W → Outcome StoreFault β} {row : V → Option Task}
    {row' : W → Option Task} (hx : Acts x view answer row) (hy : Acts y view' answer' row')
    (unseen : view (s.write (row' (view' s))) = view s) (unseen' : view' (s.write (row (view s))) = view' s)
    (apart : ∀ u v, row (view s) = some u → row' (view' s) = some v → u.id ≠ v.id) : Commute x y s := by
  unfold Commute
  cases lock : s.poisoned with
  | true =>
    have first : (x s).2 = s := by rw [hx.refused s lock]
    have second : (y s).2 = s := by rw [hy.refused s lock]
    exact ⟨by rw [second], by rw [first], by rw [first, second, first]⟩
  | false =>
    have second := hx.answered (s.write (row' (view' s))) lock
    have second' := hy.answered (s.write (row (view s))) lock
    rw [unseen] at second
    rw [unseen'] at second'
    rw [hx.answered s lock, hy.answered s lock]
    dsimp only
    rw [second, second']
    exact ⟨rfl, rfl, write_comm (hx.stored s) (hy.stored s) apart⟩

/-! ### What is seen of a written row -/

theorem get?_write {row : Option Task} (other : ∀ u, row = some u → u.id ≠ id) :
    (s.write row).tasks.get? id = s.tasks.get? id := by
  cases row with
  | none => rfl
  | some u => exact (Table.get?_put s.tasks u id).trans (if_neg (other u rfl))

theorem claimable_write {row : Option Task} (hidden : ∀ u, row = some u →
      ∃ t, s.tasks.get? u.id = some t ∧ isClaimable pattern now t = false ∧ isClaimable pattern now u = false) :
    (s.write row).tasks.rows.filter (isClaimable pattern now) = s.tasks.rows.filter (isClaimable pattern now) := by
  cases row with
  | none => rfl
  | some u =>
    obtain ⟨t, stored, old, new⟩ := hidden u rfl
    exact Table.filter_rows_put stored old new

theorem isClaimable_of_isDue (h : t.isDue now = false) : isClaimable pattern now t = false := by
  rw [isClaimable, h, Bool.false_and]

theorem isClaimable_of_status (h : t.status ≠ .pending) : isClaimable pattern now t = false :=
  isClaimable_of_isDue (Task.isDue_of_status h)

theorem isClaimable_of_accepts (h : pattern.accepts t.subject = false) : isClaimable pattern now t = false := by
  rw [isClaimable, h, Bool.and_false]

/-! ### Claims -/

/-- The task that is claimed of those that can be. -/
def claimedOf (now : Instant) (claimable : List Task) : Option Task :=
  (firstOf claimable).bind fun t => (t.claim now).toOption

theorem claimedOf_eq_some (h : claimedOf now (s.tasks.rows.filter (isClaimable pattern now)) = some u) :
    u.status = .running ∧
      ∃ t, s.tasks.get? u.id = some t ∧ t.status = .pending ∧ pattern.accepts t.subject = true := by
  obtain ⟨t, first, claimed⟩ := Option.bind_eq_some_iff.mp h
  obtain ⟨member, claimable⟩ := List.mem_filter.mp (mem_of_firstOf first)
  have moved : t.claim now = .ok u := by
    cases hc : t.claim now <;> simp_all [Except.toOption]
  obtain ⟨pending, rfl⟩ := Task.claim_eq_ok.mp moved
  exact ⟨rfl, t, Table.get?_key member, pending, (isClaimable_iff.mp claimable).2⟩

/-- A claim does not see the claim of a task that it could not take anyhow. -/
theorem claimable_claimed {other : Pattern} {later : Instant}
    (apart : ∀ t ∈ s.tasks.rows, ¬(pattern.accepts t.subject = true ∧ other.accepts t.subject = true)) :
    (s.write (claimedOf later (s.tasks.rows.filter (isClaimable other later)))).tasks.rows.filter
      (isClaimable pattern now) = s.tasks.rows.filter (isClaimable pattern now) := by
  refine claimable_write fun u h => ?_
  obtain ⟨busy, t, found, -, accepted⟩ := claimedOf_eq_some h
  have refused : pattern.accepts t.subject = false :=
    Bool.eq_false_iff.mpr fun both => apart t (Table.mem_of_get? found) ⟨both, accepted⟩
  exact ⟨t, found, isClaimable_of_accepts refused, isClaimable_of_status (by rw [busy]; nofun)⟩

/-- A claim takes a pending task, and so no running one. -/
theorem claimedOf_ne (found : s.tasks.get? id = some t) (running : t.status = .running)
    (h : claimedOf now (s.tasks.rows.filter (isClaimable pattern now)) = some u) : u.id ≠ id := by
  rintro rfl
  obtain ⟨-, t', found', pending, -⟩ := claimedOf_eq_some h
  obtain rfl := Option.some.inj (found.symm.trans found')
  cases running.symm.trans pending

theorem acts_claimNext (pattern : Pattern) (now : Instant) :
    Acts (claimNext pattern now) (fun s => s.tasks.rows.filter (isClaimable pattern now))
      (fun claimable => .ok (claimedOf now claimable)) (claimedOf now) where
  refused s closed := by
    rcases claimNext_cases pattern now s with ⟨-, hs⟩ | ⟨isOpen, -⟩ | ⟨isOpen, -⟩
    · exact hs
    · exact absurd (closed.symm.trans isOpen) nofun
    · exact absurd (closed.symm.trans isOpen) nofun
  answered s isOpen := by
    rcases claimNext_cases pattern now s with ⟨closed, -⟩ | ⟨-, none, hs⟩ | ⟨-, t, u, first, moved, hs⟩
    · exact absurd (closed.symm.trans isOpen) nofun
    · rw [hs, none]
      rfl
    · have claimed : claimedOf now (s.tasks.rows.filter (isClaimable pattern now)) = some u := by
        rw [claimedOf, first, Option.bind_some, moved]
        rfl
      rw [hs, claimed]
      rfl
  stored s u h := by
    obtain ⟨-, t, found, -, -⟩ := claimedOf_eq_some h
    exact List.mem_map.mpr ⟨t, Table.mem_of_get? found, Table.key_of_get? found⟩

/-! ### Ends of attempts -/

/-- The end of an attempt at a given time, for the task with an identifier: the call of a consumer that gives it up. -/
inductive Ends (id : TaskId) (now : Instant) : {α : Type} → StoreM α → Prop where
  | complete : Ends id now (complete id now)
  | fail (error : String) : Ends id now (failAttempt id error now)
  | requeue : Ends id now (requeue id now)

/-- A change of one task that does not crash, and after which the task is not due. -/
structure Settles (now : Instant) (change : Task → Outcome Refusal (Task × α)) : Prop where
  whole : ∀ t, change t ≠ .error .crashed
  id_eq : ∀ {t u a}, change t = .ok (u, a) → u.id = t.id
  not_due : ∀ {t u a}, change t = .ok (u, a) → u.isDue now = false

theorem settles_complete (now : Instant) : Settles now
    fun t : Task => (.ofExcept ((t.complete now).map fun t => (t, ())) : Outcome Refusal (Task × Unit)) where
  whole t := by cases t.complete now <;> simp [Outcome.ofExcept, Except.map]
  id_eq h := by rw [(Task.complete_eq_ok.mp (map_unit_eq_ok.mp (ofExcept_eq_ok.mp h))).2]
  not_due h := by
    rw [(Task.complete_eq_ok.mp (map_unit_eq_ok.mp (ofExcept_eq_ok.mp h))).2]
    exact Task.isDue_of_status (by simp)

theorem settles_failAttempt (room : now.HasRoom) (error : String) :
    Settles now fun t : Task => t.failAttempt error now where
  whole t := by
    obtain ⟨earliest, sum⟩ := room.add? (backoff_bounds (t.attempts + 1)).2
    by_cases running : t.status = .running
    · by_cases spent : t.maxAttempts ≤ t.attempts
      · rw [Task.failAttempt_eq_ok.mpr ⟨running, Or.inl ⟨spent, rfl, rfl⟩⟩]
        nofun
      · rw [Task.failAttempt_eq_ok.mpr ⟨running, Or.inr ⟨Nat.not_le.mp spent, earliest, sum, rfl, rfl⟩⟩]
        nofun
    · rw [Task.failAttempt, if_pos running]
      nofun
  id_eq h := by
    obtain ⟨-, ⟨-, -, rfl⟩ | ⟨-, _, -, -, rfl⟩⟩ := Task.failAttempt_eq_ok.mp h
    · rfl
    · rfl
  not_due h := by
    obtain ⟨-, ⟨-, -, rfl⟩ | ⟨-, earliest, sum, -, rfl⟩⟩ := Task.failAttempt_eq_ok.mp h
    · exact Task.isDue_of_status nofun
    · exact Task.isDue_of_add sum (backoff_bounds _).1 rfl

theorem settles_requeue (room : now.HasRoom) : Settles now fun t : Task => (t.requeue now).map fun t => (t, ()) where
  whole t := by
    obtain ⟨earliest, sum⟩ := room.add? (d := requeueDelay) (by decide)
    unfold Task.requeue
    rw [sum]
    split
    · nofun
    · nofun
  id_eq h := by
    obtain ⟨-, _, -, rfl⟩ := Task.requeue_eq_ok.mp (map_unit_eq_ok.mp h)
    rfl
  not_due h := by
    obtain ⟨-, earliest, sum, rfl⟩ := Task.requeue_eq_ok.mp (map_unit_eq_ok.mp h)
    exact Task.isDue_of_add (d := requeueDelay) sum (by decide) rfl

theorem Ends.settles {x : StoreM α} (h : Ends id now x) (room : now.HasRoom) :
    ∃ change : Task → Outcome Refusal (Task × α), x = changeTask id change ∧ Settles now change := by
  cases h with
  | complete => exact ⟨_, rfl, settles_complete now⟩
  | fail error => exact ⟨_, rfl, settles_failAttempt room error⟩
  | requeue => exact ⟨_, rfl, settles_requeue room⟩

section
variable {change : Task → Outcome Refusal (Task × α)}

/-- What the change of a task answers, if the task is there. -/
def answerOf (id : TaskId) (change : Task → Outcome Refusal (Task × α)) : Option Task → Outcome StoreFault α
  | none => .error (.refused (.taskNotFound id))
  | some t => ((change t).map Prod.snd).mapError (·.map .refused)

/-- What the change of a task writes. -/
def rowOf (change : Task → Outcome Refusal (Task × α)) (found : Option Task) : Option Task :=
  found.bind fun t => (change t).toOption.map Prod.fst

theorem rowOf_eq_some (settles : Settles now change) (h : rowOf change (s.tasks.get? id) = some u) :
    ∃ t, s.tasks.get? id = some t ∧ u.id = id ∧ u.isDue now = false := by
  obtain ⟨t, found, changed⟩ := Option.bind_eq_some_iff.mp h
  obtain ⟨⟨v, a⟩, moved, rfl⟩ := Option.map_eq_some_iff.mp changed
  have moved : change t = .ok (v, a) := by
    cases hc : change t <;> simp_all [Except.toOption]
  exact ⟨t, found, (settles.id_eq moved).trans (Table.key_of_get? found), settles.not_due moved⟩

theorem acts_changeTask (settles : Settles now change) :
    Acts (changeTask id change) (·.tasks.get? id) (answerOf id change) (rowOf change) where
  refused s closed := by rw [changeTask_apply, if_pos closed]
  answered s isOpen := by
    rw [changeTask_apply, if_neg (Bool.eq_false_iff.mp isOpen)]
    cases found : s.tasks.get? id with
    | none => rfl
    | some t =>
      have row : rowOf change (some t) = (change t).toOption.map Prod.fst := rfl
      rw [row]
      dsimp only [answerOf]
      cases changed : change t with
      | ok moved => rfl
      | error halt =>
        cases halt with
        | refused cause => rfl
        | crashed => exact absurd changed (settles.whole t)
  stored s u h := by
    obtain ⟨t, found, same, -⟩ := rowOf_eq_some settles h
    exact List.mem_map.mpr ⟨t, Table.mem_of_get? found, (Table.key_of_get? found).trans same.symm⟩

end

/-- The ends of attempts at different tasks commute, and so do claims under patterns that have no stored subject in
    common. A claim commutes with the end of an attempt at a running task at the same time, also where it could take
    that task: what is put back waits for later. -/
theorem calls_commute (s : Store) :
    (∀ {α β : Type} {id id' : TaskId} {now now' : Instant} {x : StoreM α} {y : StoreM β}, id ≠ id' → now.HasRoom →
      now'.HasRoom → Ends id now x → Ends id' now' y → Commute x y s) ∧
    (∀ {pattern pattern' : Pattern} (now now' : Instant),
      (∀ t ∈ s.tasks.rows, ¬(pattern.accepts t.subject = true ∧ pattern'.accepts t.subject = true)) →
      Commute (claimNext pattern now) (claimNext pattern' now') s) ∧
    ∀ {α : Type} {id : TaskId} {t : Task} {now : Instant} {x : StoreM α} (pattern : Pattern),
      s.tasks.get? id = some t → t.status = .running → now.HasRoom → Ends id now x →
      Commute (claimNext pattern now) x s := by
  refine ⟨?_, ?_, ?_⟩
  · intro α β id id' now now' x y ne room room' hx hy
    obtain ⟨change, rfl, settles⟩ := hx.settles room
    obtain ⟨change', rfl, settles'⟩ := hy.settles room'
    refine (acts_changeTask settles).commute (acts_changeTask settles') ?_ ?_ ?_
    · refine get?_write fun u h => ?_
      obtain ⟨-, -, rfl, -⟩ := rowOf_eq_some settles' h
      exact ne.symm
    · refine get?_write fun u h => ?_
      obtain ⟨-, -, rfl, -⟩ := rowOf_eq_some settles h
      exact ne
    · intro u v hu hv
      obtain ⟨-, -, rfl, -⟩ := rowOf_eq_some settles hu
      obtain ⟨-, -, rfl, -⟩ := rowOf_eq_some settles' hv
      exact ne
  · intro pattern pattern' now now' apart
    have apart' := fun t ht (both : _ ∧ _) => apart t ht both.symm
    refine (acts_claimNext pattern now).commute (acts_claimNext pattern' now') (claimable_claimed apart)
      (claimable_claimed apart') fun u v hu hv same => ?_
    obtain ⟨-, t, found, -, accepted⟩ := claimedOf_eq_some hu
    obtain ⟨-, t', found', -, accepted'⟩ := claimedOf_eq_some hv
    rw [← same, found] at found'
    obtain rfl := Option.some.inj found'
    exact apart t (Table.mem_of_get? found) ⟨accepted, accepted'⟩
  · intro α id t now x pattern found running room hx
    obtain ⟨change, rfl, settles⟩ := hx.settles room
    refine (acts_claimNext pattern now).commute (acts_changeTask settles) (claimable_write fun u h => ?_)
      (get?_write fun u => claimedOf_ne found running) fun u v hu hv => ?_
    · -- The task runs before its attempt ends, and waits or is done for good afterwards.
      obtain ⟨t', found', rfl, waits⟩ := rowOf_eq_some settles h
      obtain rfl := Option.some.inj (found.symm.trans found')
      exact ⟨t, found, isClaimable_of_status (by rw [running]; nofun), isClaimable_of_isDue waits⟩
    · obtain ⟨-, -, rfl, -⟩ := rowOf_eq_some settles hv
      exact claimedOf_ne found running hu

/-- Two tasks, the first of which is claimed. -/
def Call.shared : List Call :=
  [.publish TaskId.made .epoch [.of "a" [], .of "b" []], .claim anySubject .epoch]

theorem calls_commute_shared :
    Commute (failAttempt (.made 0) "no" ⟨1, 0⟩) (requeue (.made 1) .epoch) (Call.afterAll Call.shared {}) ∧
    Commute (claimNext ⟨"a", by decide, by decide⟩ .epoch) (claimNext ⟨"b", by decide, by decide⟩ ⟨1, 0⟩)
      (Call.afterAll Call.shared {}) ∧
    Commute (claimNext anySubject .epoch) (failAttempt (.made 0) "no" .epoch) (Call.afterAll Call.shared {}) ∧
    (failAttempt (.made 0) "no" .epoch (Call.afterAll Call.shared {})).1.toOption = some (.retry ⟨20, 0⟩) := by
  obtain ⟨ends, claims, claimed⟩ := calls_commute (Call.afterAll Call.shared {})
  have first : ((Call.afterAll Call.shared {}).tasks.get? (.made 0)).map Task.status = some .running := by
    decide +kernel
  obtain ⟨t, found, running⟩ := Option.map_eq_some_iff.mp first
  refine ⟨?_, claims .epoch ⟨1, 0⟩ ?_, ?_, by decide +kernel⟩
  · exact ends (by decide) (by decide) (by decide) (.fail "no") .requeue
  · decide +kernel
  · exact claimed anySubject found running (by decide) (.fail "no")

end
end Store
end DurableQueue
