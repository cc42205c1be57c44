import DurableQueue.Proofs.Store.Unfailing

/-! Publishing a batch is all or nothing, and in order. The tasks of a batch are looked at one after the other before
    the store is asked, and the first that is not valid is what the refusal names. A valid batch is stored place by place
    under the identifiers of the supply, and what was stored before is left as it was. -/

namespace DurableQueue

namespace Queue

variable {ids : Nat → TaskId} {now : Instant} {news : List NewTask} {fault : QueueFault}

/-! ### The first task that is not valid -/

/-- The task at the place is not valid, and all before it are. -/
structure FirstInvalid (now : Instant) (news : List NewTask) (place : Nat) (cause : Refusal) : Prop where
  invalid : ∃ new, news[place]? = some new ∧ new.validate now = .error cause
  valid : ∀ i < place, ∀ new, news[i]? = some new → new.validate now = .ok ()

theorem FirstInvalid.cons {new : NewTask} {place : Nat} {cause : Refusal} (head : new.validate now = .ok ())
    (tail : FirstInvalid now news place cause) : FirstInvalid now (new :: news) (place + 1) cause where
  invalid := tail.invalid
  valid
    | 0, _, _, rfl => head
    | i + 1, before, other, found => tail.valid i (Nat.lt_of_succ_lt_succ before) other found

theorem validateFrom_eq_ok (valid : ∀ new ∈ news, new.validate now = .ok ()) (index : Nat) :
    validateFrom now index news = .ok () := by
  induction news generalizing index with
  | nil => rfl
  | cons new rest ih =>
    obtain ⟨head, tail⟩ := List.forall_mem_cons.mp valid
    rw [validateFrom, head]
    exact ih tail (index + 1)

theorem exists_firstInvalid (invalid : ∃ new ∈ news, new.validate now ≠ .ok ()) (index : Nat) :
    ∃ place cause, FirstInvalid now news place cause ∧
      validateFrom now index news = .error (.invalidTask (index + place) cause) := by
  induction news generalizing index with
  | nil =>
    obtain ⟨_, ⟨⟩, -⟩ := invalid
  | cons new rest ih =>
    rw [validateFrom]
    cases head : new.validate now with
    | error cause => exact ⟨0, cause, ⟨⟨new, rfl, head⟩, nofun⟩, rfl⟩
    | ok _ =>
      obtain ⟨other, member, wrong⟩ := invalid
      have behind : other ∈ rest := (List.mem_cons.mp member).resolve_left fun same => wrong (same ▸ head)
      obtain ⟨place, cause, first, refused⟩ := ih ⟨other, behind, wrong⟩ (index + 1)
      exact ⟨place + 1, cause, first.cons head, by rw [Nat.add_comm place, ← Nat.add_assoc]; exact refused⟩

/-! ### Without the store -/

section
variable {m : Type → Type} [Monad m] (insert : List Task → m (Except (Halt StoreFault) Unit))

theorem publish_invalid (refused : validate now news = .error fault) :
    publish insert ids now news = pure (.refuse fault) := by
  rw [publish, refused]

theorem publish_nil : publish insert ids now [] = pure (.ok []) := rfl

end

/-! ### The tasks of a batch -/

theorem tasksOf_getElem? (ids : Nat → TaskId) (now : Instant) (news : List NewTask) (i : Nat) :
    (tasksOf ids now news)[i]? = (news[i]?).map fun new => .create (ids i) new now := by
  simp [tasksOf, Function.comp_def]

theorem mem_tasksOf {t : Task} :
    t ∈ tasksOf ids now news ↔ ∃ i new, news[i]? = some new ∧ t = .create (ids i) new now := by
  simp only [List.mem_iff_getElem?, tasksOf_getElem?, Option.map_eq_some_iff, @eq_comm _ t]

/-- The tasks have the identifiers of the supply, in order. -/
theorem ids_tasksOf (ids : Nat → TaskId) (now : Instant) (news : List NewTask) :
    (tasksOf ids now news).map (·.id) = (List.range news.length).map ids := by
  rw [List.range_eq_range', ← List.zipIdx_map_snd 0 news, List.map_map, tasksOf, List.map_map]
  rfl

end Queue

namespace Store
open StoreM

variable {s : Store} {ids : Nat → TaskId} {now : Instant} {news : List NewTask}

/-! ### Batches -/

theorem insertTasks_accepted_iff (isOpen : s.poisoned = false) (batch : List Task) :
    (insertTasks batch s).1 = .ok () ↔
      (batch.map (·.id)).Nodup ∧ ∀ t ∈ batch, s.tasks.get? t.id = none ∧ t.subject ≠ "" := by
  have check := @checkBatch_eq_ok_iff s.tasks [] batch
  simp only [List.not_mem_nil, not_false_eq_true, true_and] at check
  rw [insertTasks_apply, if_neg (Bool.eq_false_iff.mp isOpen), and_comm, ← check]
  cases checkBatch s.tasks [] batch <;> simp

/-- Valid tasks pass the look at their batch under new identifiers. -/
theorem checkBatch_tasksOf (valid : ∀ new ∈ news, new.validate now = .ok ()) (fresh : NewIds ids news.length s) :
    checkBatch s.tasks [] (Queue.tasksOf ids now news) = .ok () := by
  refine checkBatch_eq_ok_iff.mpr ⟨fun t ht => ?_, ?_⟩
  · obtain ⟨i, new, found, rfl⟩ := Queue.mem_tasksOf.mp ht
    have inside := (List.getElem?_eq_some_iff.mp found).1
    have named := NewTask.subject_ne_of_validate (valid new (List.mem_of_getElem? found))
    exact ⟨fresh.unused i inside, List.not_mem_nil, named⟩
  · exact Queue.ids_tasksOf ids now news ▸ fresh.nodup

/-- After a batch what was stored before is found as it was, and each task of the batch under its identifier. -/
theorem get?_published (check : checkBatch s.tasks [] (Queue.tasksOf ids now news) = .ok ()) {id : TaskId} {t : Task} :
    ((Queue.tasksOf ids now news).foldl Table.put s.tasks).get? id = some t ↔
      s.tasks.get? id = some t ∨ ∃ i new, news[i]? = some new ∧ ids i = id ∧ t = .create (ids i) new now := by
  obtain ⟨unused, nodup⟩ := checkBatch_eq_ok_iff.mp check
  rw [Table.get?_eq_some_iff, Table.rows_foldl_put (fun t ht => (unused t ht).1) nodup, List.mem_append,
    Queue.mem_tasksOf, Table.get?_eq_some_iff]
  constructor
  · rintro ⟨stored | ⟨i, new, found, rfl⟩, named⟩
    · exact Or.inl ⟨stored, named⟩
    · exact Or.inr ⟨i, new, found, named, rfl⟩
  · rintro (⟨stored, named⟩ | ⟨i, new, found, named, rfl⟩)
    · exact ⟨Or.inl stored, named⟩
    · exact ⟨Or.inr ⟨i, new, found, rfl⟩, named⟩

/-- A valid batch that is not empty is published as a whole, unless the lock is poisoned. -/
theorem publish_valid (valid : ∀ new ∈ news, new.validate now = .ok ()) (filled : news ≠ [])
    (fresh : NewIds ids news.length s) :
    publish ids now news s = if s.poisoned then (.error (.refused (.store .poisoned)), s)
      else (.ok ((List.range news.length).map ids),
        { s with tasks := (Queue.tasksOf ids now news).foldl Table.put s.tasks }) := by
  obtain ⟨new, rest, rfl⟩ := List.exists_cons_of_ne_nil filled
  rw [publish_apply (Queue.validateFrom_eq_ok valid 0), insertTasks_apply, checkBatch_tasksOf valid fresh,
    Queue.ids_tasksOf]
  cases s.poisoned <;> rfl

/-- A batch with a task that is not valid is refused for the first of them, and an empty one is published, without the
    store. Any other batch is published as a whole under identifiers that are new: the answer has them in order, each task
    is found under its own, and all that was stored before is found as it was. The store takes tasks in if their
    identifiers are new and distinct and each has a subject, and only then. A publication without an answer has changed
    nothing, and a poisoned store takes in nothing. -/
theorem publish_exact (s : Store) (ids : Nat → TaskId) (now : Instant) (news : List NewTask) :
    ((∃ new ∈ news, new.validate now ≠ .ok ()) → ∃ place cause, Queue.FirstInvalid now news place cause ∧
      ∀ {m : Type → Type} [Monad m] (insert : List Task → m (Except (Halt StoreFault) Unit)),
        Queue.publish insert ids now news = pure (.refuse (.invalidTask place cause))) ∧
    (∀ {m : Type → Type} [Monad m] (insert : List Task → m (Except (Halt StoreFault) Unit)),
      Queue.publish insert ids now [] = pure (.ok [])) ∧
    ((∀ new ∈ news, new.validate now = .ok ()) → news ≠ [] → NewIds ids news.length s →
      (s.poisoned = false → ∃ tasks,
        publish ids now news s = (.ok ((List.range news.length).map ids), { s with tasks }) ∧
        (∀ i new, news[i]? = some new → tasks.get? (ids i) = some {
          id := ids i
          subject := new.subject
          status := .pending
          runAfter := new.runAfter.getD now
          payload := new.payload
          maxAttempts := new.maxAttempts
          attempts := 0
          lastError := none
          lastAttempt := none
          createdAt := now
          updatedAt := now }) ∧
        (∀ id t, s.tasks.get? id = some t → tasks.get? id = some t) ∧
        ∀ id t, tasks.get? id = some t → s.tasks.get? id = some t ∨ id ∈ (List.range news.length).map ids) ∧
      (s.poisoned = true → publish ids now news s = (.error (.refused (.store .poisoned)), s))) ∧
    (∀ h, (publish ids now news s).1 = .error h → (publish ids now news s).2 = s) ∧
    (s.poisoned = false → ∀ batch, (insertTasks batch s).1 = .ok () ↔
      (batch.map (·.id)).Nodup ∧ ∀ t ∈ batch, s.tasks.get? t.id = none ∧ t.subject ≠ "") ∧
    (s.poisoned = true → ∀ batch, insertTasks batch s = (.error (.refused .poisoned), s)) := by
  refine ⟨fun invalid => ?_, Queue.publish_nil, fun valid filled fresh => ⟨fun isOpen => ?_, fun poisoned => ?_⟩,
    fun h failed => ?_, insertTasks_accepted_iff, fun poisoned batch => ?_⟩
  · obtain ⟨place, cause, first, refused⟩ := Queue.exists_firstInvalid invalid 0
    rw [Nat.zero_add] at refused
    exact ⟨place, cause, first, fun insert => Queue.publish_invalid insert refused⟩
  · have call := publish_valid valid filled fresh
    rw [if_neg (Bool.eq_false_iff.mp isOpen)] at call
    have found := @get?_published s ids now news (checkBatch_tasksOf valid fresh)
    refine ⟨_, call, fun i new here => found.mpr (Or.inr ⟨i, new, here, rfl, rfl⟩),
      fun id t stored => found.mpr (Or.inl stored), fun id t stored => (found.mp stored).imp_right ?_⟩
    rintro ⟨i, new, here, rfl, -⟩
    exact List.mem_map_of_mem (List.mem_range.mpr (List.getElem?_eq_some_iff.mp here).1)
  · rw [publish_valid valid filled fresh, if_pos poisoned]
  · rcases publish_cases ids now news s with ⟨h, hs⟩ | ⟨-, -, hs⟩
    · rw [hs]
    · rw [hs] at failed
      cases failed
  · rw [insertTasks_apply, if_pos poisoned]

/-- A store with one task. -/
def Call.single : List Call := [.publish TaskId.made .epoch [.of "a" []]]

/-- Behind a task that is stored already two more are published, the second of them to run later. Of two others the second
    is not valid. -/
theorem publish_exact_mixed :
    (∃ tasks,
      publish (fun n => .made (n + 1)) .epoch [.of "b" [], ⟨"c", [1], some ⟨5, 0⟩, 2⟩] (Call.afterAll Call.single {}) =
        (.ok [.made 1, .made 2], { Call.afterAll Call.single {} with tasks }) ∧
      (tasks.get? (.made 2)).map (fun t => (t.subject, t.runAfter, t.attempts)) = some ("c", ⟨5, 0⟩, 0) ∧
      tasks.get? (.made 0) = some (.create (.made 0) (.of "a" []) .epoch)) ∧
    (∃ cause, publish TaskId.made .epoch [.of "b" [], .of "*" []] {} = (.error (.refused (.invalidTask 1 cause)), {})) ∧
    ((insertTasks [.create (.made 0) (.of "b" []) .epoch] (Call.afterAll Call.single {})).1 ≠ .ok ()) ∧
    publish (fun n => .made (n + 1)) .epoch [.of "b" []] (Call.afterAll Call.crashed {}) =
      (.error (.refused (.store .poisoned)), Call.afterAll Call.crashed {}) := by
  obtain ⟨-, -, published, -, accepted, -⟩ := publish_exact (Call.afterAll Call.single {}) (fun n => .made (n + 1)) .epoch
    [.of "b" [], ⟨"c", [1], some ⟨5, 0⟩, 2⟩]
  obtain ⟨refused, -⟩ := publish_exact {} TaskId.made .epoch [.of "b" [], .of "*" []]
  obtain ⟨-, -, crashed, -⟩ := publish_exact (Call.afterAll Call.crashed {}) (fun n => .made (n + 1)) .epoch [.of "b" []]
  refine ⟨?_, ?_, fun ok => ?_, (crashed (by decide) (by decide) ⟨by decide, by decide⟩).2 (by decide)⟩
  · obtain ⟨tasks, call, found, kept, -⟩ := (published (by decide) (by decide) ⟨by decide, by decide⟩).1 (by decide)
    refine ⟨tasks, call, ?_, kept _ _ (by decide)⟩
    rw [found 1 _ rfl]
    rfl
  · obtain ⟨place, cause, first, call⟩ := refused ⟨.of "*" [], by simp, by decide⟩
    obtain ⟨new, here, wrong⟩ := first.invalid
    obtain rfl : place = 1 := by
      match place, here with
      | 0, rfl => cases wrong
      | 1, _ => rfl
    exact ⟨cause, congrFun (call fun tasks => (insertTasks tasks).run) _⟩
  · exact absurd ((accepted (by decide) _).mp ok).2 (by decide)

/-- After a crash the lock refuses a valid task under a new identifier. -/
theorem publish_refused_crashed :
    ∃ es s, Run {} es s ∧ (NewTask.of "b" []).validate .epoch = .ok () ∧ NewIds (fun n => .made (n + 1)) 1 s ∧
      (publish (fun n => .made (n + 1)) .epoch [.of "b" []] s).1 = .error (.refused (.store .poisoned)) := by
  have fresh : NewIds (fun n => .made (n + 1)) 1 (Call.afterAll Call.crashed {}) := ⟨by decide, by decide⟩
  exact ⟨_, _, Run.of_calls Call.crashed {}, by decide, fresh, by decide +kernel⟩

end Store
end DurableQueue
