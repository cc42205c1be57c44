import DurableQueue.Instant

/-! The order of points in time. It is linear over all of them, leap seconds and times beyond the calendar included. -/

namespace DurableQueue
namespace Instant

instance : Std.IsLinearOrder Instant where
  le_refl a := by simp only [le_def, lt_def]; omega
  le_trans a b c := by simp only [le_def, lt_def]; omega
  le_antisymm a b := by
    obtain ⟨_, _⟩ := a
    obtain ⟨_, _⟩ := b
    simp only [le_def, lt_def, Instant.mk.injEq]
    omega
  le_total a b := by simp only [le_def, lt_def]; omega

instance : Std.LawfulOrderLT Instant where
  lt_iff a b := by simp only [le_def, lt_def]; omega

theorem le_later_left (a b : Instant) : a ≤ a.later b := by
  unfold later
  split
  · exact Std.le_refl a
  · next h => exact h

theorem le_later_right (a b : Instant) : b ≤ a.later b := by
  unfold later
  split
  · next h => exact Std.le_of_lt h
  · exact Std.le_refl b

theorem add?_eq_some_iff {t u : Instant} {d : Span} : t.add? d = some u ↔ (t.add d).InRange ∧ t.add d = u := by
  unfold add?
  split <;> simp_all

/-! ### Sums -/

variable {t : Instant} {d longer : Span}

theorem second_le_add (t : Instant) (d : Span) : t.second ≤ (t.add d).second := by
  unfold add
  split
  · exact Int.le_refl _
  · simp only [ofNanos, Span.perSecond]
    omega

theorem second_add_le (le : d ≤ longer) : (t.add d).second ≤ (t.add longer).second := by
  have le : d.nanos ≤ longer.nanos := le
  by_cases within : t.isLeap = true ∧ t.nano + longer.nanos < 2 * Span.perSecond
  · have both : t.isLeap = true ∧ t.nano + d.nanos < 2 * Span.perSecond := ⟨within.1, by omega⟩
    have same : (t.add d).second = (t.add longer).second := by rw [add, add, if_pos both, if_pos within]
    exact Int.le_of_eq same
  · by_cases leap : t.isLeap = true ∧ t.nano + d.nanos < 2 * Span.perSecond
    · rw [add, if_pos leap]
      exact second_le_add t longer
    · rw [add, add, if_neg leap, if_neg within]
      simp only [ofNanos, Span.perSecond]
      omega

/-- A second leads to a later one, also out of a leap second. -/
theorem lt_add (second : .ofSeconds 1 ≤ d) : t < t.add d := by
  have second : 1 * Span.perSecond ≤ d.nanos := second
  refine Or.inl ?_
  unfold add
  split
  · next within =>
    have leap : Span.perSecond ≤ t.nano := by simpa [isLeap] using within.1
    omega
  · simp only [ofNanos, Span.perSecond] at second ⊢
    omega

/-- Where the calendar holds a time and another one a length of time later, it holds those between. -/
theorem add?_isSome_of_le (here : t.InRange) (far : (t.add? longer).isSome = true) (le : d ≤ longer) :
    (t.add? d).isSome = true := by
  obtain ⟨u, hu⟩ := Option.isSome_iff_exists.mp far
  have bound := (add?_eq_some_iff.mp hu).1.2
  have inside : (t.add d).InRange := ⟨Int.le_trans here.1 (second_le_add t d), Int.le_trans (second_add_le le) bound⟩
  rw [add?, if_pos inside]
  rfl

end Instant
end DurableQueue
