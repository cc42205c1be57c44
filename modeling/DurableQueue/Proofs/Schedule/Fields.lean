import DurableQueue.Schedule.Expression

/-! The values of the fields of an expression. Whatever items a field has, its values are some of those that it admits,
    in their order; so the fields of every expression are ascending and within their bounds. An expression that ends with
    its sixth field has all years. -/

namespace DurableQueue
namespace Schedule

namespace Field
variable {f : Field} {values : List Nat}

theorem mem_all_iff {n : Nat} : n ∈ f.all ↔ f.least ≤ n ∧ n ≤ f.greatest := by
  have bounds : f.least ≤ f.greatest := by cases f <;> decide
  rw [all, List.mem_range'_1]
  omega

theorem pairwise_all (f : Field) : f.all.Pairwise (· < ·) := List.pairwise_lt_range'

theorem bounds_of_sublist (part : values.Sublist f.all) : ∀ n ∈ values, f.least ≤ n ∧ n ≤ f.greatest := fun _ member =>
  mem_all_iff.mp (part.subset member)

theorem ascending_of_sublist (part : values.Sublist f.all) : values.Pairwise (· < ·) := f.pairwise_all.sublist part

theorem sublist_of_select {items : List Item} (selects : f.select items = .ok values) : values.Sublist f.all := by
  obtain ⟨_, -, ⟨⟩⟩ := bind_eq_ok_iff.mp selects
  exact List.filter_sublist

end Field

theorem sublist_of_scanField {f : Field} {size : Nat} {cs rest : List Char} {values : List Nat}
    (scans : scanField f size cs = .ok (values, rest)) : values.Sublist f.all := by
  unfold scanField at scans
  split at scans
  · cases scans
  · split at scans
    · next selects =>
      cases scans
      exact Field.sublist_of_select selects
    · cases scans

theorem sublist_scanYears (size : Nat) (cs : List Char) : (scanYears size cs).1.Sublist Field.years.all := by
  unfold scanYears
  split
  · next scans => exact sublist_of_scanField scans
  · exact List.Sublist.refl _

/-- Each field has some of the values that it admits, in their order. -/
structure WellFormed (s : Schedule) : Prop where
  seconds : s.seconds.Sublist Field.seconds.all
  minutes : s.minutes.Sublist Field.minutes.all
  hours : s.hours.Sublist Field.hours.all
  days : s.days.Sublist Field.daysOfMonth.all
  months : s.months.Sublist Field.months.all
  weekdays : s.weekdays.Sublist Field.daysOfWeek.all
  years : s.years.Sublist Field.years.all

/-- Each field begins where the one before it ends, and that of the years ends with the text. -/
theorem of_readFields {cs : List Char} {s : Schedule} (reads : readFields cs = .ok s) :
    ∃ r₁ r₂ r₃ r₄ r₅ r₆, scanField .seconds cs.length cs = .ok (s.seconds, r₁) ∧
      scanField .minutes cs.length r₁ = .ok (s.minutes, r₂) ∧ scanField .hours cs.length r₂ = .ok (s.hours, r₃) ∧
      scanField .daysOfMonth cs.length r₃ = .ok (s.days, r₄) ∧ scanField .months cs.length r₄ = .ok (s.months, r₅) ∧
      scanField .daysOfWeek cs.length r₅ = .ok (s.weekdays, r₆) ∧ scanYears cs.length r₆ = (s.years, []) := by
  obtain ⟨_, seconds, reads⟩ := bind_eq_ok_iff.mp reads
  obtain ⟨_, minutes, reads⟩ := bind_eq_ok_iff.mp reads
  obtain ⟨_, hours, reads⟩ := bind_eq_ok_iff.mp reads
  obtain ⟨_, days, reads⟩ := bind_eq_ok_iff.mp reads
  obtain ⟨_, months, reads⟩ := bind_eq_ok_iff.mp reads
  obtain ⟨_, weekdays, reads⟩ := bind_eq_ok_iff.mp reads
  dsimp only at reads
  split at reads
  · next ends =>
    cases reads
    exact ⟨_, _, _, _, _, _, seconds, minutes, hours, days, months, weekdays, Prod.ext rfl ends⟩
  · cases reads

theorem wellFormed_of_readFields {cs : List Char} {s : Schedule} (reads : readFields cs = .ok s) : s.WellFormed := by
  obtain ⟨_, _, _, _, _, r₆, seconds, minutes, hours, days, months, weekdays, years⟩ := of_readFields reads
  refine ⟨sublist_of_scanField seconds, sublist_of_scanField minutes, sublist_of_scanField hours,
    sublist_of_scanField days, sublist_of_scanField months, sublist_of_scanField weekdays, ?_⟩
  have part := sublist_scanYears cs.length r₆
  rwa [years] at part

theorem readFields_of_read {source : String} {s : Schedule} (reads : Schedule.read source = .ok s) :
    readFields source.toList = .ok s := by
  unfold Schedule.read at reads
  dsimp only at reads
  split at reads
  · cases reads
  · split at reads
    · cases reads
    · exact reads

/-! ### Six fields -/

/-- The schedule of the first six fields, in all years that a schedule can name. -/
def sixFields (s : Schedule) : Schedule := { s with years := Field.years.all }

/-- Reads the first six fields of an expression, up to where the one for the years begins. -/
def readSix (cs : List Char) : Except Fault (Schedule × List Char) := do
  let size := cs.length
  let (seconds, rest) ← scanField .seconds size cs
  let (minutes, rest) ← scanField .minutes size rest
  let (hours, rest) ← scanField .hours size rest
  let (days, rest) ← scanField .daysOfMonth size rest
  let (months, rest) ← scanField .months size rest
  let (weekdays, rest) ← scanField .daysOfWeek size rest
  .ok ({ seconds, minutes, hours, days, months, weekdays, years := Field.years.all }, rest)

theorem WellFormed.sixFields {s : Schedule} (form : s.WellFormed) : s.sixFields.WellFormed :=
  { form with years := List.Sublist.refl _ }

theorem readSix_of_readFields {cs : List Char} {s : Schedule} (reads : readFields cs = .ok s) :
    ∃ rest, readSix cs = .ok (s.sixFields, rest) ∧ scanYears cs.length rest = (s.years, []) := by
  obtain ⟨_, _, _, _, _, r₆, seconds, minutes, hours, days, months, weekdays, years⟩ := of_readFields reads
  refine ⟨r₆, ?_, years⟩
  simp only [readSix, seconds, minutes, hours, days, months, weekdays, bind, Except.bind, Schedule.sixFields]

/-- An expression that ends with its sixth field fires in all years. -/
theorem sixFields_of_readSix {source : String} {s six : Schedule} (reads : Schedule.read source = .ok s)
    (ends : readSix source.toList = .ok (six, [])) : s.sixFields = s := by
  obtain ⟨rest, leaves, years⟩ := readSix_of_readFields (readFields_of_read reads)
  cases leaves.symm.trans ends
  have all : Field.years.all = s.years := congrArg Prod.fst years
  rw [sixFields, all]

end Schedule

theorem Expression.wellFormed (e : Expression) : e.schedule.WellFormed :=
  Schedule.wellFormed_of_readFields (Schedule.readFields_of_read e.reads)

end DurableQueue
