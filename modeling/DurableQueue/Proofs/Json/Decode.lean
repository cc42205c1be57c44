import DurableQueue.Json.Decode
import Mathlib.Data.List.Forall2
import Mathlib.Data.List.Nodup

/-! Reading the parts of records: what is written of a part is read as that part. A record has its members if each of them
    stands there once and can be read; members that nobody wants do not count. -/

namespace DurableQueue

theorem Expression.read_source (e : Expression) : Expression.read e.source = .ok e := by
  unfold Expression.read
  split
  · exact congrArg Except.ok (Expression.ext_source rfl)
  · next fault h => cases h.symm.trans e.reads

namespace Json

variable {α : Type} {form : Form}

/-! ### Parts -/

theorem decodeNat_nat {bound n : Nat} (small : n < bound) (wanted : String) : decodeNat bound wanted (.nat n) = .ok n := by
  rw [nat, decodeNat, if_pos ⟨Int.natCast_nonneg n, Int.ofNat_lt.mpr small⟩]
  rfl

theorem decodeByte_toNat (b : UInt8) : decodeByte (.integer b.toNat) = .ok b := by
  rw [decodeByte]
  have reads := decodeNat_nat b.toNat_lt "u8"
  rw [nat] at reads
  rw [reads]
  simp [Except.map]

/-- The items of an array are read one by one. -/
theorem mapM_eq_ok_iff {one : Decoder α} {items : List Json} {as : List α} :
    items.mapM one = .ok as ↔ List.Forall₂ (fun v a => one v = .ok a) items as := by
  induction items generalizing as with
  | nil =>
    rw [List.forall₂_nil_left_iff]
    exact ⟨fun h => (Except.ok.inj h).symm, fun h => h ▸ rfl⟩
  | cons v items ih =>
    rw [List.mapM_cons, List.forall₂_cons_left_iff, bind_eq_ok_iff]
    constructor
    · rintro ⟨a, head, rest⟩
      obtain ⟨as, tail, last⟩ := bind_eq_ok_iff.mp rest
      cases last
      exact ⟨a, as, head, ih.mp tail, rfl⟩
    · rintro ⟨a, as, head, tail, rfl⟩
      exact ⟨a, head, bind_eq_ok_iff.mpr ⟨as, ih.mpr tail, rfl⟩⟩

theorem decodeList_eq_ok_iff {one : Decoder α} {v : Json} {as : List α} :
    decodeList one v = .ok as ↔ ∃ items, v = .array items ∧ List.Forall₂ (fun v a => one v = .ok a) items as := by
  cases v with
  | array items =>
    rw [decodeList, mapM_eq_ok_iff]
    simp
  | _ => simp [decodeList]

theorem decodeBytes_bytes (bs : List UInt8) : decodeBytes (.bytes bs) = .ok bs := by
  rw [decodeBytes, decodeList_eq_ok_iff]
  refine ⟨_, rfl, ?_⟩
  rw [List.forall₂_map_left_iff, List.forall₂_same]
  exact fun b _ => decodeByte_toNat b

/-- A word of a kind stands for the case that it is written for. -/
theorem decodeWord_string {known : List String} {ofWord? : String → Option α} {word : String} {a : α}
    (found : ofWord? word = some a) : decodeWord form known ofWord? (.string word) = .ok a := by
  cases form <;> simp [decodeWord, found]

theorem readExpression_eq_ok_iff {source : String} {e : Expression} : readExpression source = .ok e ↔ e.source = source := by
  constructor
  · intro h
    unfold readExpression Expression.read at h
    split at h
    · next read =>
      cases h
      split at read
      · cases read
        rfl
      · cases read
    · cases h
  · rintro rfl
    rw [readExpression, Expression.read_source]

theorem decodeExpression_source (e : Expression) : decodeExpression (.string e.source) = .ok e := by
  have reads : readExpression e.source = .ok e := readExpression_eq_ok_iff.mpr rfl
  simp only [decodeExpression, decodeRead, decodeString, bind, Except.bind, reads]

/-! ### Records -/

theorem checked_eq_ok {one : Decoder α} {v : Json} {a : α} (reads : one v = .ok a) : checked one v = .ok () := by
  rw [checked, reads]
  rfl

/-- The members have what a field wants: a value that can be read, or none if they need not have one. -/
def RecordField.Fits (field : RecordField) (members : Members) : Prop :=
  match members.lookup field.name with
  | some v => field.check v = .ok ()
  | none => field.optional = true

section
variable {name : String} {fields : List RecordField} {members : Members} {v : Json}

theorem RecordField.Fits.check {field : RecordField} (fits : field.Fits members)
    (found : members.lookup field.name = some v) : field.check v = .ok () := by
  rwa [Fits, found] at fits

theorem lookup_eq_some_of_mem {key : String} (once : (members.map (·.1)).Nodup) (member : (key, v) ∈ members) :
    members.lookup key = some v := by
  obtain ⟨front, back, rfl⟩ := List.append_of_mem member
  rw [List.map_append, List.map_cons, List.nodup_middle, List.nodup_cons, List.mem_append, not_or] at once
  refine List.lookup_eq_some_iff.mpr ⟨front, back, rfl, fun m before => ?_⟩
  rw [bne_iff_ne]
  exact fun same => once.1.1 (List.mem_map.mpr ⟨m, before, same.symm⟩)

theorem checkMembers_eq_ok {seen : List String} (once : (members.map (·.1)).Nodup) (fresh : ∀ m ∈ members, m.1 ∉ seen)
    (right : ∀ field ∈ fields, ∀ v, (field.name, v) ∈ members → field.check v = .ok ()) :
    checkMembers fields seen members = .ok () := by
  induction members generalizing seen with
  | nil => rfl
  | cons m members ih =>
    obtain ⟨key, v⟩ := m
    rw [List.map_cons, List.nodup_cons] at once
    rw [List.forall_mem_cons] at fresh
    have others : ∀ field ∈ fields, ∀ v, (field.name, v) ∈ members → field.check v = .ok () :=
      fun field known w member => right field known w (List.mem_cons_of_mem _ member)
    rw [checkMembers]
    split
    · exact ih once.2 fresh.2 others
    · next field found =>
      have named : field.name = key := by simpa using List.find?_some found
      have check : field.check v = .ok () :=
        right field (List.mem_of_find?_eq_some found) v (named ▸ List.mem_cons_self)
      rw [if_neg (by simpa using fresh.1), check]
      refine ih once.2 (fun m member => ?_) others
      rw [List.mem_cons, not_or]
      exact ⟨fun same => once.1 (List.mem_map.mpr ⟨m, member, same⟩), fresh.2 m member⟩

/-- An object is a record if each of its members stands there once and it has what the fields want. -/
theorem decodeMembers_object (once : (members.map (·.1)).Nodup) (fits : ∀ field ∈ fields, field.Fits members) :
    decodeMembers form name fields (.object members) = .ok members := by
  have right : ∀ field ∈ fields, ∀ v, (field.name, v) ∈ members → field.check v = .ok () :=
    fun field known v member => (fits field known).check (lookup_eq_some_of_mem once member)
  have complete : fields.find? (fun f => !f.optional && (members.lookup f.name).isNone) = none := by
    rw [List.find?_eq_none]
    intro field known missing
    have fits := fits field known
    unfold RecordField.Fits at fits
    cases found : members.lookup field.name <;> simp_all
  rw [decodeMembers, checkMembers_eq_ok once (fun _ _ => List.not_mem_nil) right]
  simp only [complete]
  rfl

/-! A member that can be read is what a field wants, and gives the value of the field. -/

section
variable {one : Decoder α} {a usual : α}

theorem RecordField.Fits.required (found : members.lookup name = some v) (reads : one v = .ok a) :
    (RecordField.required name one).Fits members := by
  rw [Fits, RecordField.required, found]
  exact checked_eq_ok reads

theorem RecordField.Fits.withDefault (found : members.lookup name = some v) (reads : one v = .ok a) :
    (RecordField.withDefault name one).Fits members := by
  rw [Fits, RecordField.withDefault, found]
  exact checked_eq_ok reads

theorem Members.required_eq_ok (found : members.lookup name = some v) (reads : one v = .ok a) :
    members.required name one = .ok a := by
  rw [Members.required, found]
  exact reads

theorem Members.withDefault_eq_ok (found : members.lookup name = some v) (reads : one v = .ok a) :
    members.withDefault name one usual = .ok a := by
  rw [Members.withDefault, found]
  exact reads

end

end

/-! ### Lengths of time -/

theorem spanOf_parts {d : Span} (short : d.seconds < wordBound) : spanOf d.seconds d.subsecond = .ok d := by
  have below : d.subsecond / Span.perSecond = 0 := Nat.div_eq_of_lt (Nat.mod_lt _ (by decide))
  rw [spanOf, below, Nat.add_zero, if_pos short, ← d.nanos_eq]

theorem decodeSpan_ofSpan {d : Span} (short : d.seconds < wordBound) : decodeSpan form (ofSpan d) = .ok d := by
  have seconds : decodeSeconds (.nat d.seconds) = .ok d.seconds := decodeNat_nat short _
  have nanos : decodeNanos (.nat d.subsecond) = .ok d.subsecond :=
    decodeNat_nat (Nat.lt_trans (Nat.mod_lt _ (by decide)) (by decide : Span.perSecond < counterBound)) _
  have members : checkMembers spanFields [] [("secs", .nat d.seconds), ("nanos", .nat d.subsecond)] = .ok () := by
    refine checkMembers_eq_ok (by simp) (fun _ _ => List.not_mem_nil) ?_
    simp [spanFields, RecordField.required, checked_eq_ok seconds, checked_eq_ok nanos]
  show (do
    checkMembers spanFields [] [("secs", .nat d.seconds), ("nanos", .nat d.subsecond)]
    spanOf (← decodeSeconds (.nat d.seconds)) (← decodeNanos (.nat d.subsecond))) = Except.ok d
  rw [members, seconds, nanos]
  exact spanOf_parts short

/-! ### Texts -/

theorem readAs_eq_ok_iff {one : Decoder α} {text : String} {a : α} :
    readAs one text = .ok a ↔ ∃ v, scan text = some v ∧ one v = .ok a := by
  unfold readAs
  split
  · next none => simp [none]
  · next v found =>
    simp only [found, Option.some.injEq, exists_eq_left']
    split
    · next reads =>
      rw [reads, Except.ok.injEq, Except.ok.injEq]
    · next fault => simp [fault]

end Json
end DurableQueue
