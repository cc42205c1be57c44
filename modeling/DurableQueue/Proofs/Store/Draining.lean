import DurableQueue.Proofs.Store.Repetition
import DurableQueue.Proofs.Store.Unfailing
import Mathlib.Data.List.Sort

/-! Claims under one pattern at one time drain the store in order. The tasks that can be claimed have one order, by the time
    from which they may run and then by identifier, whatever the order of the rows is; a claim takes the first of them and
    leaves the others as they are, so that the next claim finds the rest of the same list. -/

namespace DurableQueue

/-- The task as a claim leaves it. -/
def Task.claimedAt (t : Task) (now : Instant) : Task :=
  { t with status := .running, lastAttempt := some now, updatedAt := now }

/-- Whether one task is to be claimed before another. -/
def Task.Precedes (a b : Task) : Prop := a.runAfter < b.runAfter ∨ a.runAfter = b.runAfter ∧ a.id < b.id

namespace Store

variable {s s' : Store} {pattern : Pattern} {now : Instant} {tasks : Table Task.id} {due : List Task} {a b c t u : Task}

/-! ### The order of claims -/

theorem goesBefore_iff : goesBefore a b = true ↔ a.Precedes b := by
  simp [goesBefore, Task.Precedes]

/-- The order compares three numbers one after the other. -/
theorem precedes_iff : a.Precedes b ↔ a.runAfter.second < b.runAfter.second ∨
    a.runAfter.second = b.runAfter.second ∧ (a.runAfter.nano < b.runAfter.nano ∨
      a.runAfter.nano = b.runAfter.nano ∧ a.id.rank < b.id.rank) := by
  have same : a.runAfter = b.runAfter ↔
      a.runAfter.second = b.runAfter.second ∧ a.runAfter.nano = b.runAfter.nano := by
    obtain ⟨_, _⟩ := a.runAfter
    obtain ⟨_, _⟩ := b.runAfter
    exact Instant.mk.injEq .. ▸ Iff.rfl
  have ids : a.id < b.id ↔ a.id.rank < b.id.rank := Iff.rfl
  rw [Task.Precedes, same, ids, Instant.lt_def]
  omega

instance : Std.Irrefl Task.Precedes := ⟨fun _ => by rw [precedes_iff]; omega⟩

instance : Std.Asymm Task.Precedes := ⟨fun _ _ => by rw [precedes_iff, precedes_iff]; omega⟩

theorem not_precedes_trans (h : ¬a.Precedes b) (h' : ¬b.Precedes c) : ¬a.Precedes c := by
  rw [precedes_iff] at h h' ⊢
  omega

theorem precedes_or (ne : a.id ≠ b.id) : a.Precedes b ∨ b.Precedes a := by
  have ranks : a.id.rank ≠ b.id.rank := mt TaskId.rank_injective ne
  rw [precedes_iff, precedes_iff]
  omega

/-- No task goes before the one that is claimed first. -/
theorem not_precedes_of_firstOf {rows : List Task} (h : firstOf rows = some t) : ∀ u ∈ rows, ¬u.Precedes t := by
  induction rows generalizing t with
  | nil => exact nofun
  | cons v rest ih =>
    intro u hu
    rw [firstOf] at h
    cases first : firstOf rest with
    | none =>
      rw [first] at h
      cases h
      obtain rfl := List.mem_singleton.mp (firstOf_eq_none_iff.mp first ▸ hu)
      exact irrefl u
    | some w =>
      have others := ih first
      simp only [first, Option.some.injEq] at h
      subst h
      split
      · next earlier =>
        rw [goesBefore_iff] at earlier
        rcases List.mem_cons.mp hu with rfl | hu
        · exact asymm earlier
        · exact others u hu
      · next later =>
        rw [goesBefore_iff] at later
        rcases List.mem_cons.mp hu with rfl | hu
        · exact irrefl u
        · exact not_precedes_trans (others u hu) later

instance : Std.Irrefl fun id id' : TaskId => id < id' := ⟨fun id => Nat.lt_irrefl id.rank⟩

instance : Std.Antisymm fun id id' : TaskId => id < id' := ⟨fun _ _ before after => absurd after (Nat.lt_asymm before)⟩

/-! ### What there is to claim -/

/-- The tasks of a table that can be claimed under a pattern, in their order. -/
structure Queued (pattern : Pattern) (now : Instant) (tasks : Table Task.id) (due : List Task) : Prop where
  mem_iff : ∀ t, t ∈ due ↔ t ∈ tasks.rows ∧ isClaimable pattern now t = true
  ordered : due.Pairwise Task.Precedes

theorem exists_queued (pattern : Pattern) (now : Instant) (tasks : Table Task.id) :
    ∃ due, Queued pattern now tasks due := by
  let claimable := tasks.rows.filter (isClaimable pattern now)
  let sorted := claimable.mergeSort fun a b => !goesBefore b a
  have perm : sorted.Perm claimable := List.mergeSort_perm _ _
  refine ⟨sorted, fun t => perm.mem_iff.trans List.mem_filter, ?_⟩
  have upward : sorted.Pairwise fun a b => ¬b.Precedes a := by
    refine (List.pairwise_mergeSort (fun a b c hab hbc => ?_) (fun a b => ?_) claimable).imp fun h => ?_
    · rw [Bool.not_eq_true', ← Bool.not_eq_true, goesBefore_iff] at hab hbc ⊢
      exact not_precedes_trans hbc hab
    · rw [Bool.or_eq_true, Bool.not_eq_true', Bool.not_eq_true', ← Bool.not_eq_true, ← Bool.not_eq_true, goesBefore_iff,
        goesBefore_iff, ← not_and_or]
      exact fun both => asymm both.1 both.2
    · rwa [Bool.not_eq_true', ← Bool.not_eq_true, goesBefore_iff] at h
  have ids : (claimable.map Task.id).Nodup := tasks.distinct.sublist (List.filter_sublist.map _)
  have apart : sorted.Pairwise fun a b => a.id ≠ b.id := List.pairwise_map.mp ((perm.map _).nodup_iff.mpr ids)
  exact (upward.and apart).imp fun ⟨later, ne⟩ => (precedes_or ne).resolve_right later

namespace Queued

theorem of_perm {tasks' : Table Task.id} (h : Queued pattern now tasks due) (order : tasks'.rows.Perm tasks.rows) :
    Queued pattern now tasks' due :=
  ⟨fun t => (h.mem_iff t).trans (and_congr_left' order.mem_iff.symm), h.ordered⟩

/-- In whichever order the rows come, the claim finds the first task. -/
theorem firstOf_eq (h : Queued pattern now tasks due) :
    firstOf (tasks.rows.filter (isClaimable pattern now)) = due.head? := by
  cases first : firstOf (tasks.rows.filter (isClaimable pattern now)) with
  | none =>
    have nothing := firstOf_eq_none_iff.mp first
    cases due with
    | nil => rfl
    | cons t rest =>
      have member := List.mem_filter.mpr ((h.mem_iff t).mp List.mem_cons_self)
      rw [nothing] at member
      cases member
  | some u =>
    have found := (h.mem_iff u).mpr (List.mem_filter.mp (mem_of_firstOf first))
    cases due with
    | nil => cases found
    | cons t rest =>
      have least := not_precedes_of_firstOf first t (List.mem_filter.mpr ((h.mem_iff t).mp List.mem_cons_self))
      rcases List.mem_cons.mp found with rfl | behind
      · rfl
      · exact absurd ((List.pairwise_cons.mp h.ordered).1 u behind) least

theorem id_ne (h : Queued pattern now tasks (t :: due)) : ∀ u ∈ due, u.id ≠ t.id := by
  intro u member same
  have stored := ((h.mem_iff u).mp (List.mem_cons_of_mem t member)).1
  obtain rfl := Table.eq_of_key_eq stored ((h.mem_iff t).mp List.mem_cons_self).1 same
  exact irrefl u ((List.pairwise_cons.mp h.ordered).1 u member)

/-- A claim leaves the others to be claimed. -/
theorem claimed (h : Queued pattern now tasks (t :: due)) : Queued pattern now (tasks.put (t.claimedAt now)) due := by
  refine ⟨fun u => ?_, (List.pairwise_cons.mp h.ordered).2⟩
  rw [Table.mem_rows_put]
  constructor
  · intro member
    obtain ⟨stored, claimable⟩ := (h.mem_iff u).mp (List.mem_cons_of_mem t member)
    exact ⟨Or.inr ⟨stored, h.id_ne u member⟩, claimable⟩
  · rintro ⟨rfl | ⟨stored, other⟩, claimable⟩
    · cases (Task.isDue_iff.mp (isClaimable_iff.mp claimable).1).1
    · refine ((List.mem_cons.mp ((h.mem_iff u).mpr ⟨stored, claimable⟩)).resolve_left ?_)
      rintro rfl
      exact other rfl

/-- A claim takes the first task, if there is one, and leaves the other tasks. -/
theorem claimNext_eq (h : Queued pattern now s.tasks due) (isOpen : s.poisoned = false) :
    (claimNext pattern now s).1 = .ok (due.head?.map (·.claimedAt now)) ∧
      (claimNext pattern now s).2.poisoned = false ∧
      Queued pattern now (claimNext pattern now s).2.tasks due.tail ∧
      ∀ id, (claimNext pattern now s).2.tasks.get? id =
        match due.head? with
        | some t => if t.id = id then some (t.claimedAt now) else s.tasks.get? id
        | none => s.tasks.get? id := by
  rcases claimNext_cases pattern now s with ⟨poisoned, -⟩ | ⟨-, nothing, hs⟩ | ⟨-, t, u, first, moved, hs⟩
  · cases poisoned.symm.trans isOpen
  · have empty : due.head? = none := h.firstOf_eq.symm.trans (firstOf_eq_none_iff.mpr nothing)
    obtain rfl := List.head?_eq_none_iff.mp empty
    rw [hs]
    exact ⟨rfl, isOpen, h, fun id => rfl⟩
  · obtain ⟨-, rfl⟩ := Task.claim_eq_ok.mp moved
    obtain ⟨rest, rfl⟩ := List.head?_eq_some_iff.mp (h.firstOf_eq.symm.trans first)
    rw [hs]
    exact ⟨rfl, isOpen, h.claimed, fun id => Table.get?_put s.tasks (t.claimedAt now) id⟩

end Queued

/-! ### Claim after claim -/

/-- Claims under one pattern at one time. -/
def claims (pattern : Pattern) (now : Instant) (_ : Store) (call : StoreM (Option Task)) : Prop :=
  call = claimNext pattern now

namespace Queued

/-- Claim after claim answers with the tasks, one by one, and then with none. Each is left as its claim has made it, and
    the tasks that are not reached are left as they were. -/
theorem drained {answers : List (Outcome StoreFault (Option Task))} (run : Repeated (claims pattern now) s answers s')
    (isOpen : s.poisoned = false) (queued : Queued pattern now s.tasks due) :
    (∀ (i : Nat) (h : i < answers.length), answers[i] = .ok (due[i]?.map (·.claimedAt now))) ∧
      (∀ t ∈ due.take answers.length, s'.tasks.get? t.id = some (t.claimedAt now)) ∧
      ∀ id, (∀ t ∈ due.take answers.length, t.id ≠ id) → s'.tasks.get? id = s.tasks.get? id := by
  induction run generalizing due with
  | nil => exact ⟨nofun, nofun, fun _ _ => rfl⟩
  | cons order made _ ih =>
    obtain rfl := made
    obtain ⟨answered, stillOpen, left, rows⟩ := (queued.of_perm order.tasks).claimNext_eq (order.poisoned.trans isOpen)
    obtain ⟨told, taken, kept⟩ := ih stillOpen left
    refine ⟨fun i hi => ?_, ?_⟩
    · cases i with
      | zero => rw [List.getElem_cons_zero, answered, List.head?_eq_getElem?]
      | succ i => rw [List.getElem_cons_succ, told i (Nat.lt_of_succ_lt_succ hi), List.getElem?_tail]
    · cases due with
      | nil =>
        rw [List.tail_nil, List.take_nil] at kept
        rw [List.take_nil]
        refine ⟨nofun, fun id _ => ?_⟩
        rw [kept id nofun, rows id, ← order.getTask id]
        rfl
      | cons t rest =>
        simp only [List.head?_cons] at rows
        refine ⟨fun u hu => ?_, fun id free => ?_⟩
        · rw [List.length_cons, List.take_succ_cons] at hu
          rcases List.mem_cons.mp hu with rfl | behind
          · rw [kept _ fun v hv => queued.id_ne v (List.mem_of_mem_take hv), rows, if_pos rfl]
          · exact taken u behind
        · rw [List.length_cons, List.take_succ_cons, List.forall_mem_cons] at free
          rw [kept id free.2, rows, if_neg free.1, order.getTask]

/-- Of tasks that may run from the same time on, those with growing identifiers are claimed as these grow. -/
theorem ids_sublist {batch : List TaskId} (h : Queued pattern now tasks due) (growing : batch.Pairwise (· < ·))
    (time : Instant) : ((due.filter fun t => t.runAfter = time ∧ t.id ∈ batch).map (·.id)).Sublist batch := by
  have ordered : ((due.filter fun t => t.runAfter = time ∧ t.id ∈ batch).map (·.id)).Pairwise (· < ·) := by
    refine List.pairwise_map.mpr (List.Pairwise.imp_of_mem (fun {a b} ha hb before => ?_) (h.ordered.filter _))
    have same : a.runAfter = b.runAfter :=
      (of_decide_eq_true (List.mem_filter.mp ha).2).1.trans (of_decide_eq_true (List.mem_filter.mp hb).2).1.symm
    exact (before.resolve_left fun earlier => by rw [same] at earlier; exact absurd earlier (Std.lt_irrefl)).2
  refine List.sublist_of_subperm_of_pairwise (List.subperm_of_subset ordered.nodup fun id hid => ?_) ordered growing
  obtain ⟨t, ht, rfl⟩ := List.mem_map.mp hid
  exact (of_decide_eq_true (List.mem_filter.mp ht).2).2

end Queued

/-- A batch is published under identifiers that grow if those of the supply do. -/
theorem pairwise_published {ids : Nat → TaskId} {news : List NewTask} {batch : List TaskId}
    (h : publish ids now news s = (.ok batch, s')) (growing : ∀ i j, i < j → j < news.length → ids i < ids j) :
    batch.Pairwise (· < ·) := by
  rcases publish_cases ids now news s with ⟨e, hs⟩ | ⟨-, -, hs⟩
  · cases hs.symm.trans h
  · cases hs.symm.trans h
    refine List.pairwise_iff_getElem.mpr fun i j hi hj before => ?_
    rw [List.length_map, Queue.tasksOf, List.length_map, List.length_zipIdx] at hj
    have grows := growing i j before hj
    simpa [Queue.tasksOf, Task.create] using grows

/-- Claims under one pattern at one time drain the store. The pending tasks that may run by then and have a matching
    subject, by the time from which they may run and then by identifier, are what claim after claim answers with, each as
    it runs from now on; then there is none left. Whatever orders the tables give out their rows in, nothing but the
    answers so far is ever written. Tasks that were published together, under growing identifiers, and that may run from
    the same time on are claimed in the order of their batch. A poisoned store refuses each of the claims instead. -/
theorem claims_drain (s : Store) (pattern : Pattern) (now : Instant) :
    ∃ due : List Task,
      (∀ t, t ∈ due ↔ s.tasks.get? t.id = some t ∧ t.status = .pending ∧ t.runAfter ≤ now ∧
        pattern.accepts t.subject = true) ∧
      due.Pairwise Task.Precedes ∧
      (∀ {answers s'}, Repeated (claims pattern now) s answers s' → s.poisoned = false →
        (∀ (i : Nat) (h : i < answers.length), answers[i] = .ok (due[i]?.map (·.claimedAt now))) ∧
        (∀ t ∈ due.take answers.length, s'.tasks.get? t.id = some (t.claimedAt now)) ∧
        ∀ id, (∀ t ∈ due.take answers.length, t.id ≠ id) → s'.tasks.get? id = s.tasks.get? id) ∧
      (∀ {answers s'}, Repeated (claims pattern now) s answers s' → s.poisoned = true →
        (∀ answer ∈ answers, answer = .error (.refused .poisoned)) ∧ ∀ id, s'.tasks.get? id = s.tasks.get? id) ∧
      ∀ {ids published news s₀ s₁ batch}, publish ids published news s₀ = (.ok batch, s₁) →
        (∀ i j, i < j → j < news.length → ids i < ids j) →
        ∀ time, ((due.filter fun t => t.runAfter = time ∧ t.id ∈ batch).map (·.id)).Sublist batch := by
  obtain ⟨due, queued⟩ := exists_queued pattern now s.tasks
  refine ⟨due, fun t => ?_, queued.ordered, fun run isOpen => queued.drained run isOpen, fun run poisoned => ?_,
    fun h growing time => queued.ids_sublist (pairwise_published h growing) time⟩
  · rw [queued.mem_iff, isClaimable_iff, Task.isDue_iff, Table.get?_eq_some_iff, and_iff_left rfl, and_assoc]
  · have closed : ∀ s call, claims pattern now s call → s.poisoned = true →
        call s = (.error (.refused .poisoned), s) := fun s call made poisoned => by
      rw [made, claimNext, StoreM.locked_apply, if_pos poisoned]
    obtain ⟨refused, same⟩ := run.refused closed poisoned
    exact ⟨refused, same.getTask⟩

/-- Two tasks of one batch, either of which may be claimed. -/
def Call.waiting : List Call := [.publish TaskId.made .epoch [.of "a" [], .of "b" []]]

theorem claims_drain_waiting :
    ∃ (due : List Task) (answers : _) (s' : _),
      Repeated (claims anySubject .epoch) (Call.afterAll Call.waiting {}) answers s' ∧
      answers.map (fun answer => answer.toOption.map (Option.map Task.id)) =
        [some (some (.made 0)), some (some (.made 1)), some none] ∧
      (∀ (i : Nat) (h : i < answers.length), answers[i] = .ok (due[i]?.map (·.claimedAt .epoch))) ∧
      ((due.filter fun t => t.runAfter = .epoch ∧ t.id ∈ [TaskId.made 0, .made 1]).map (·.id)).Sublist
        [.made 0, .made 1] ∧
      (claimNext anySubject .epoch (Call.afterAll Call.crashed {})).1 = .error (.refused .poisoned) := by
  obtain ⟨due, -, -, drained, -, inOrder⟩ := claims_drain (Call.afterAll Call.waiting {}) anySubject .epoch
  obtain ⟨-, -, -, -, refused, -⟩ := claims_drain (Call.afterAll Call.crashed {}) anySubject .epoch
  have claimed {s answers s'} (tail : Repeated (claims anySubject .epoch) (claimNext anySubject .epoch s).2 answers s') :
      Repeated (claims anySubject .epoch) s ((claimNext anySubject .epoch s).1 :: answers) s' := .cons (.refl s) rfl tail
  have published : publish TaskId.made .epoch [.of "a" [], .of "b" []] {} =
    (.ok [.made 0, .made 1], Call.afterAll Call.waiting {}) := rfl
  have run := @claimed (Call.afterAll Call.waiting {}) _ _ (claimed (claimed (.nil _)))
  refine ⟨due, _, _, run, by decide +kernel, (drained run (by decide)).1,
    inOrder published (fun i j before last => ?_) .epoch,
    (refused (claimed (.nil _)) (by decide)).1 _ (List.mem_singleton_self _)⟩
  obtain ⟨rfl, rfl⟩ : i = 0 ∧ j = 1 := by
    have two : j < 2 := last
    omega
  decide

/-- After a crash the lock refuses the claim of a task that is pending and may run. -/
theorem claim_refused_crashed :
    ∃ es s t, Run {} es s ∧ s.tasks.get? t.id = some t ∧ t.status = .pending ∧ t.runAfter ≤ .epoch ∧
      anySubject.accepts t.subject = true ∧ (claimNext anySubject .epoch s).1 = .error (.refused .poisoned) := by
  have stored : (Call.afterAll Call.crashed {}).tasks.get? (.made 0) = some (.create (.made 0) (.of "a" []) .epoch) := by
    decide +kernel
  exact ⟨_, _, .create (.made 0) (.of "a" []) .epoch, Run.of_calls Call.crashed {}, stored, rfl, by decide, by decide,
    by decide +kernel⟩

end Store
end DurableQueue
