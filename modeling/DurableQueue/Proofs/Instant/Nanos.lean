import DurableQueue.Proofs.Instant.Order

/-! Points in time as whole numbers of nanoseconds. A time that is moved back is moved by exactly so many of them, and so
    is one that is moved on, unless it lies in a leap second. Times outside leap seconds are in the order of their
    numbers. -/

namespace DurableQueue
namespace Instant

/-- The nanoseconds since the beginning of 1970. Those of a leap second are counted once more in the second behind it. -/
def nanos (t : Instant) : Int := t.second * Span.perSecond + t.nano

variable {a b t : Instant} {d : Span}

theorem isLeap_eq_false : t.isLeap = false ↔ t.nano < Span.perSecond := by
  simp [isLeap]

/-! ### Sums and differences -/

theorem nanos_ofNanos (n : Int) : (ofNanos n).nanos = n := by
  simp only [nanos, ofNanos, Span.perSecond]
  omega

theorem isLeap_ofNanos (n : Int) : (ofNanos n).isLeap = false := by
  simp only [isLeap_eq_false, ofNanos, Span.perSecond]
  omega

theorem nanos_add (plain : t.isLeap = false) (d : Span) : (t.add d).nanos = t.nanos + d.nanos := by
  have whole : t.subsecond = t.nano := by rw [subsecond, plain]; rfl
  rw [add, if_neg (by simp [plain]), nanos_ofNanos, whole]
  rfl

theorem nanos_sub (t : Instant) (d : Span) : (t.sub d).nanos = t.nanos - d.nanos := by
  unfold sub
  split
  · next within =>
    have leap : Span.perSecond ≤ t.nano := by simpa [isLeap] using within.1
    simp only [nanos]
    omega
  · exact nanos_ofNanos _

theorem isLeap_sub (plain : t.isLeap = false) (d : Span) : (t.sub d).isLeap = false := by
  rw [sub, if_neg (by simp [plain])]
  exact isLeap_ofNanos _

/-- Where a second has at most one leap second behind it, a time that is moved back does not come into a later one. -/
theorem second_sub_le (single : t.nano < 2 * Span.perSecond) (d : Span) : (t.sub d).second ≤ t.second := by
  unfold sub
  split
  · exact Int.le_refl _
  · next without =>
    have leap : t.isLeap = true ↔ Span.perSecond ≤ t.nano := by simp [isLeap]
    rw [leap] at without
    simp only [ofNanos, Span.perSecond] at single without ⊢
    omega

/-! ### Order -/

theorem lt_iff_nanos_lt (ha : a.isLeap = false) (hb : b.isLeap = false) : a < b ↔ a.nanos < b.nanos := by
  rw [isLeap_eq_false] at ha hb
  simp only [lt_def, nanos, Span.perSecond] at ha hb ⊢
  omega

theorem lt_epoch_iff : t < .epoch ↔ t.second < 0 := by
  simp [lt_def, epoch]

/-- A time of the calendar that is moved back leaves the calendar before 1970 only. -/
theorem inRange_sub (here : t.InRange) (single : t.nano < 2 * Span.perSecond) (since : .epoch ≤ t.sub d) :
    (t.sub d).InRange := by
  have first : firstSecond ≤ 0 := by decide
  rw [le_def, lt_epoch_iff] at since
  exact ⟨by omega, Int.le_trans (second_sub_le single d) here.2⟩

end Instant
end DurableQueue
