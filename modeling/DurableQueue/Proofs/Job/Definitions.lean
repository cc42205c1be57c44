import DurableQueue.Proofs.Json.Decode
import DurableQueue.Proofs.Json.RoundTrip
import DurableQueue.Proofs.Store.Jobs
import DurableQueue.Relational.Calls
import DurableQueue.Scheduler

/-! Definitions of cron jobs in a text. A list of valid ones is read again as it has been written. What is read from any
    text at all has an array in it whose items are the definitions, and each of them is valid: those who check definitions
    later, the scheduler and both stores, refuse none of them. -/

namespace DurableQueue
namespace JobSpec

/-! ### One definition -/

section
variable {spec : JobSpec} {form : Json.Form}

theorem delay_seconds_lt (valid : spec.validate = .ok ()) : spec.delay.seconds < wordBound := by
  have short : spec.delay.nanos ≤ longestDelay.nanos := (of_validate valid).2
  have bound : longestDelay.nanos / Span.perSecond < wordBound := by decide
  exact Nat.lt_of_le_of_lt (Nat.div_le_div_right short) bound

/-- What is written of a definition is read as this definition. -/
theorem decode_encode (short : spec.delay.seconds < wordBound) : decode form (encode spec) = .ok spec := by
  have name : Json.decodeString (.string spec.name) = .ok spec.name := rfl
  have subject : Json.decodeString (.string spec.subject) = .ok spec.subject := rfl
  have expression := Json.decodeExpression_source spec.expression
  have status : Json.decodeJobStatus form (.string spec.status.word) = .ok spec.status :=
    Json.decodeWord_string (JobStatus.ofWord?_word spec.status)
  have payload := Json.decodeBytes_bytes spec.payload
  have delay : Json.decodeSpan form (.ofSpan spec.delay) = .ok spec.delay := Json.decodeSpan_ofSpan short
  have members : Json.decodeMembers form "CronJobSpec" (fields form) (encode spec) = .ok
      [("name", .string spec.name), ("expression", .string spec.expression.source),
        ("status", .string spec.status.word), ("subject", .string spec.subject), ("payload", .bytes spec.payload),
        ("task_run_after", .ofSpan spec.delay)] := by
    refine Json.decodeMembers_object (by simp) ?_
    simp only [fields, List.forall_mem_cons]
    exact ⟨.required rfl name, .required rfl expression, .withDefault rfl status,
      .required rfl subject, .withDefault rfl payload, .withDefault rfl delay, nofun⟩
  simp only [decode, bind_eq_ok_iff]
  exact ⟨_, members, _, Json.Members.required_eq_ok rfl name, _, Json.Members.required_eq_ok rfl expression,
    _, Json.Members.withDefault_eq_ok rfl status, _, Json.Members.required_eq_ok rfl subject,
    _, Json.Members.withDefault_eq_ok rfl payload, _, Json.Members.withDefault_eq_ok rfl delay, rfl⟩

theorem encode_plain (short : spec.delay.seconds < wordBound) : (encode spec).Plain := by
  have nat {n : Nat} (small : n < wordBound) : (Json.nat n).Plain := by
    unfold wordBound at small
    refine .integer ?_ ?_
    · unfold Json.leastInteger
      omega
    · unfold Json.greatestInteger
      omega
  have bytes : (Json.bytes spec.payload).Plain := by
    refine .array fun v member => ?_
    obtain ⟨b, -, rfl⟩ := List.mem_map.mp member
    exact nat (Nat.lt_trans b.toNat_lt (by decide))
  have delay : (Json.ofSpan spec.delay).Plain := by
    refine .object ?_
    simp only [List.forall_mem_cons]
    exact ⟨nat short, nat (Nat.lt_trans (Nat.mod_lt _ (by decide)) (by decide : Span.perSecond < wordBound)), nofun⟩
  refine .object ?_
  simp only [List.forall_mem_cons]
  exact ⟨.string _, .string _, .string _, .string _, bytes, delay, nofun⟩

end

/-! ### Lists of definitions -/

/-- A list of definitions is read exactly if the text has an array in it whose items are the definitions, one after the
    other, and all of these are valid. -/
theorem readList_eq_ok_iff {text : String} {specs : List JobSpec} : readList text = .ok specs ↔
    ∃ items, Json.scan text = some (.array items) ∧ List.Forall₂ (fun v spec => decode .text v = .ok spec) items specs ∧
      ∀ spec ∈ specs, spec.validate = .ok () := by
  -- The text is read first, and then the definitions are checked.
  have both : readList text = .ok specs ↔
      Json.readAs (Json.decodeList (decode .text)) text = .ok specs ∧ specs.forM validate = .ok () := by
    unfold readList
    split
    · next fault reads => simp [reads]
    · next read reads =>
      rw [reads]
      constructor
      · intro h
        split at h
        · cases h
        · next check =>
          cases h
          exact ⟨rfl, check⟩
      · rintro ⟨⟨⟩, check⟩
        rw [check]
  rw [both, Json.readAs_eq_ok_iff, Store.forM_eq_ok_iff]
  constructor
  · rintro ⟨⟨v, found, reads⟩, valid⟩
    obtain ⟨items, rfl, each⟩ := Json.decodeList_eq_ok_iff.mp reads
    exact ⟨items, found, each, valid⟩
  · rintro ⟨items, found, each, valid⟩
    exact ⟨⟨.array items, found, Json.decodeList_eq_ok_iff.mpr ⟨items, rfl, each⟩⟩, valid⟩

theorem scan_writeList {specs : List JobSpec} (short : ∀ spec ∈ specs, spec.delay.seconds < wordBound) :
    Json.scan (writeList specs) = some (.array (specs.map encode)) := by
  refine Json.scan_print (.array fun v member => ?_)
  obtain ⟨spec, known, rfl⟩ := List.mem_map.mp member
  exact encode_plain (short spec known)

theorem readList_writeList {specs : List JobSpec} (valid : ∀ spec ∈ specs, spec.validate = .ok ()) :
    readList (writeList specs) = .ok specs := by
  have short : ∀ spec ∈ specs, spec.delay.seconds < wordBound :=
    fun spec member => delay_seconds_lt (valid spec member)
  refine readList_eq_ok_iff.mpr ⟨_, scan_writeList short, ?_, valid⟩
  rw [List.forall₂_map_left_iff, List.forall₂_same]
  exact fun spec member => decode_encode (short spec member)

/-- Definitions that nobody refuses: they are valid, their expressions are ones that are read from their texts, and neither
    the scheduler nor a store stops at its check of them. -/
structure Registrable (specs : List JobSpec) : Prop where
  valid : ∀ spec ∈ specs, spec.validate = .ok ()
  reads : ∀ spec ∈ specs, Expression.read spec.expression.source = .ok spec.expression
  /-- The scheduler hands them on to the store, and has no fault of its own. -/
  registers : ∀ {m : Type → Type} [Monad m] (upsert : List JobSpec → m (Except (Halt StoreFault) (List Job))),
    Scheduler.register upsert specs = do return (← upsert specs).mapError (·.map .store)
  /-- A store that keeps its tables goes on to write them. -/
  stores : ∀ ids now, Store.upsertJobs ids specs now = StoreM.locked (Store.upsertFrom ids now 0 specs)
  /-- A store that has a database goes on to write them. -/
  sends : ∀ ids now,
    Relational.upsertJobs ids specs now = Relational.Session.inTransaction (Relational.upsertFrom ids now 0 specs)
  /-- While there are days in the calendar, and no call has crashed before, they are registered. -/
  answers : ∀ ids now s, s.poisoned = false → now.add? (.ofSeconds 1) ≠ none →
    ∃ jobs, ((Scheduler.register (fun specs => (Store.upsertJobs ids specs now).run) specs).run s).1 = .ok jobs

theorem registrable {specs : List JobSpec} (valid : ∀ spec ∈ specs, spec.validate = .ok ()) : Registrable specs := by
  have check := Store.forM_eq_ok_iff.mpr valid
  have registers {m : Type → Type} [Monad m] (upsert : List JobSpec → m (Except (Halt StoreFault) (List Job))) :
      Scheduler.register upsert specs = do return (← upsert specs).mapError (·.map .store) := by
    rw [Scheduler.register, check]
  have stores (ids : Nat → JobId) (now : Instant) :
      Store.upsertJobs ids specs now = StoreM.locked (Store.upsertFrom ids now 0 specs) := by
    rw [Store.upsertJobs, check]
    rfl
  have sends (ids : Nat → JobId) (now : Instant) :
      Relational.upsertJobs ids specs now = Relational.Session.inTransaction (Relational.upsertFrom ids now 0 specs) := by
    rw [Relational.upsertJobs, check]
    rfl
  refine ⟨valid, fun spec _ => Expression.read_source _, registers, stores, sends, ?_⟩
  intro ids now s sound goes
  obtain ⟨made, jobs, written, -⟩ := Store.upsertFrom_ok goes ids 0 specs s
  have stored : Store.upsertJobs ids specs now s = (.ok made, { s with jobs }) := by
    rw [stores, StoreM.locked_apply, if_neg (by simp [sound]), written]
  refine ⟨made, ?_⟩
  rw [registers]
  show ((Store.upsertJobs ids specs now s).1).mapError _ = _
  rw [stored]
  rfl

/-- A list of valid definitions is read again as it has been written. A text is read exactly if it has an array in it whose
    items are definitions that are valid, and what is read then is these; nobody refuses to register them. One item that is
    no definition, or none that is valid, and nothing is read. -/
theorem definitions_exact :
    (∀ specs, (∀ spec ∈ specs, spec.validate = .ok ()) → readList (writeList specs) = .ok specs) ∧
    ∀ text,
      (∀ specs, readList text = .ok specs ↔ ∃ items, Json.scan text = some (.array items) ∧
        List.Forall₂ (fun v spec => decode .text v = .ok spec) items specs ∧ ∀ spec ∈ specs, spec.validate = .ok ()) ∧
      (∀ specs, readList text = .ok specs → Registrable specs) ∧
      ∀ items, Json.scan text = some (.array items) → ∀ v ∈ items,
        (∀ spec, decode .text v = .ok spec → spec.validate ≠ .ok ()) → ∃ fault, readList text = .error fault := by
  refine ⟨fun specs valid => readList_writeList valid, fun text => ⟨fun specs => readList_eq_ok_iff, ?_, ?_⟩⟩
  · intro specs reads
    obtain ⟨items, found, each, valid⟩ := readList_eq_ok_iff.mp reads
    exact registrable valid
  · intro items found v member wrong
    cases reads : readList text with
    | error fault => exact ⟨fault, rfl⟩
    | ok specs =>
      obtain ⟨items', found', each, valid⟩ := readList_eq_ok_iff.mp reads
      cases found.symm.trans found'
      -- The item has a definition in the same place of the list, and that one is valid.
      obtain ⟨i, bound, rfl⟩ := List.mem_iff_getElem.mp member
      obtain ⟨same, pairs⟩ := List.forall₂_iff_get.mp each
      exact absurd (valid _ (List.get_mem specs ⟨i, same ▸ bound⟩)) (wrong _ (pairs i bound (same ▸ bound)))

/-- A definition with a quote, a backslash, a control character and a letter beyond ASCII in its name, and a delay of a
    second and a nanosecond. -/
def awkward : JobSpec := ⟨"\"\\\x01é", .everyHour, .disabled, "a.b", [0, 255], ⟨1000000001⟩⟩

/-- A definition whose name is blank. -/
def nameless : JobSpec := .plain " " .everyMinute

theorem definitions_exact_awkward :
    readList (writeList [awkward]) = .ok [awkward] ∧ Registrable [awkward] ∧
    ∃ fault, readList (writeList [awkward, nameless]) = .error fault := by
  have valid : ∀ spec ∈ [awkward], spec.validate = .ok () := by
    rintro spec (_ | ⟨_, ⟨⟩⟩)
    rfl
  have short : ∀ spec ∈ [awkward, nameless], spec.delay.seconds < wordBound := by decide
  have reads := definitions_exact.1 [awkward] valid
  have wrong : ∀ spec, decode .text (encode nameless) = .ok spec → spec.validate ≠ .ok () := by
    intro spec same
    cases same.symm.trans (decode_encode (short nameless (by simp)))
    nofun
  exact ⟨reads, (definitions_exact.2 _).2.1 _ reads,
    (definitions_exact.2 _).2.2 _ (scan_writeList short) _ (by simp) wrong⟩

end JobSpec
end DurableQueue
