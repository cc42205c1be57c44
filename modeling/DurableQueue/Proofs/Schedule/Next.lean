import DurableQueue.Proofs.Instant.Order
import DurableQueue.Schedule.Expression

/-! The next time of a schedule comes after the time that was asked for, and once a schedule has come to its end there is
    no next time later either. The search goes forward only: what it finds lies at or behind its beginning, and where it
    finds nothing a search that begins later has less to look at. -/

namespace DurableQueue
namespace Schedule

variable {s : Schedule}

/-! ### Within a day -/

theorem le_of_firstTime? {least time : Nat} (h : s.firstTime? least = some time) : least ≤ time := by
  obtain ⟨hour, -, h⟩ := List.exists_of_findSome?_eq_some h
  obtain ⟨minute, -, h⟩ := List.exists_of_findSome?_eq_some h
  obtain ⟨second, -, h⟩ := List.exists_of_findSome?_eq_some h
  dsimp only at h
  split at h
  · next reached =>
    cases h
    exact reached
  · cases h

theorem firstTime?_eq_none_iff {least : Nat} : s.firstTime? least = none ↔
    ∀ hour ∈ s.hours, ∀ minute ∈ s.minutes, ∀ second ∈ s.seconds, hour * 3600 + minute * 60 + second < least := by
  simp [firstTime?, List.findSome?_eq_none_iff]

theorem firstTime?_none_of_le {least later : Nat} (h : s.firstTime? least = none) (le : least ≤ later) :
    s.firstTime? later = none :=
  firstTime?_eq_none_iff.mpr fun hour hh minute hm second hs =>
    Nat.lt_of_lt_of_le (firstTime?_eq_none_iff.mp h hour hh minute hm second hs) le

/-! ### Day by day -/

theorem le_of_search {days : Nat} {day : Int} {least : Nat} {second : Int} (start : least ≤ 86400)
    (h : s.search days day least = some second) : day * Instant.secondsPerDay + least ≤ second := by
  induction days generalizing day least with
  | zero => cases h
  | succ days ih =>
    rw [search] at h
    split at h
    · next time found =>
      cases h
      split at found
      · have := le_of_firstTime? found
        omega
      · cases found
    · have := ih (Nat.zero_le _) h
      simp only [Instant.secondsPerDay] at this ⊢
      omega

theorem search_eq_none_iff {days : Nat} {day : Int} {least : Nat} : s.search days day least = none ↔
    ∀ d, day ≤ d → d < day + days → s.admitsDay d = true → s.firstTime? (if d = day then least else 0) = none := by
  induction days generalizing day least with
  | zero => simp only [search, true_iff]; omega
  | succ days ih =>
    have first : (if s.admitsDay day = true then s.firstTime? least else none) = none ↔
        (s.admitsDay day = true → s.firstTime? least = none) := by
      split <;> simp_all
    rw [search]
    split
    · next time found =>
      -- The first day has a time, so the search ends there.
      have : ¬(s.admitsDay day = true → s.firstTime? least = none) := by rw [← first, found]; nofun
      simp only [reduceCtorEq, false_iff]
      intro all
      have := all day (by omega) (by omega)
      rw [if_pos rfl] at this
      contradiction
    · next nothing =>
      rw [ih]
      constructor
      · intro rest d begin bound admitted
        by_cases same : d = day
        · subst same
          rw [if_pos rfl]
          exact first.mp nothing admitted
        · have := rest d (by omega) (by omega) admitted
          rw [ite_self] at this
          rw [if_neg same, this]
      · intro all d begin bound admitted
        have := all d (by omega) (by omega) admitted
        rw [if_neg (by omega)] at this
        rw [ite_self, this]

/-- Where a search finds nothing, one that begins later and ends no later finds nothing either. -/
theorem search_none_of_le {days days' : Nat} {day day' : Int} {least least' : Nat}
    (h : s.search days day least = none) (begin : day < day' ∨ day = day' ∧ least ≤ least')
    (bound : ∀ d, day' ≤ d → d < day' + days' → d < day + days) : s.search days' day' least' = none := by
  rw [search_eq_none_iff] at h ⊢
  intro d hd hd' admitted
  have earlier := h d (by omega) (bound d hd hd') admitted
  refine firstTime?_none_of_le earlier ?_
  by_cases first : d = day
  · rw [if_pos first, if_pos (by omega)]
    omega
  · rw [if_neg first]
    exact Nat.zero_le _

/-! ### The next time -/

theorem le_of_firstFrom? {second found : Int} (h : s.firstFrom? second = some found) : second ≤ found := by
  unfold firstFrom? at h
  split at h
  · cases h
  · dsimp only at h
    have := le_of_search (by simp only [Instant.secondsPerDay]; omega) h
    simp only [Instant.secondsPerDay] at this
    omega

/-- The second behind a time is in year 0 or later. From a time before that no schedule finds a time to fire. -/
def SinceYearZero (t : Instant) : Prop := 0 ≤ (Date.ofDayNumber ((t.second + 1) / Instant.secondsPerDay)).year

instance (t : Instant) : Decidable (SinceYearZero t) :=
  inferInstanceAs (Decidable (0 ≤ (Date.ofDayNumber ((t.second + 1) / Instant.secondsPerDay)).year))

theorem lt_of_next? {t u : Instant} (h : s.next? t = some u) : t < u := by
  obtain ⟨second, found, rfl⟩ := Option.map_eq_some_iff.mp h
  have := le_of_firstFrom? found
  exact Instant.lt_def.mpr (Or.inl (by dsimp only; omega))

/-- A schedule that has come to its end fires no more. -/
theorem next?_none_of_le {t u : Instant} (since : SinceYearZero t) (h : s.next? t = none) (le : t ≤ u) :
    s.next? u = none := by
  rw [next?, Option.map_eq_none_iff] at h ⊢
  rw [SinceYearZero] at since
  unfold firstFrom? at h ⊢
  rw [if_neg (Int.not_lt.mpr since)] at h
  split
  · rfl
  · have seconds : t.second ≤ u.second := by
      simp only [Instant.le_def, Instant.lt_def] at le
      omega
    refine search_none_of_le h ?_ ?_
    · simp only [Instant.secondsPerDay]
      omega
    · simp only [Instant.secondsPerDay]
      omega

end Schedule

namespace Expression
variable {ε : Type} {e : Expression} {t : Instant} {next : Option Instant}

/-- The search ends unless the calendar ends within the second after its beginning. -/
theorem next_eq_ok : (e.next t : Outcome ε (Option Instant)) = .ok next ↔
    (t.add? (.ofSeconds 1)).isSome = true ∧ e.schedule.next? t = next := by
  unfold Expression.next
  cases t.add? (.ofSeconds 1) <;> simp [Outcome.crash]

theorem next_eq_crash : (e.next t : Outcome ε (Option Instant)) = .crash ↔ t.add? (.ofSeconds 1) = none := by
  unfold Expression.next
  cases t.add? (.ofSeconds 1) <;> simp [Outcome.crash]

theorem lt_of_next {u : Instant} (h : (e.next t : Outcome ε (Option Instant)) = .ok (some u)) : t < u :=
  Schedule.lt_of_next? (next_eq_ok.mp h).2

/-- At the beginning of every minute. -/
def everyMinute : Expression where
  source := "0 * * * * *"
  schedule := {
    seconds := [0]
    minutes := Schedule.Field.minutes.all
    hours := Schedule.Field.hours.all
    days := Schedule.Field.daysOfMonth.all
    months := Schedule.Field.months.all
    weekdays := Schedule.Field.daysOfWeek.all
    years := Schedule.Field.years.all }
  reads := rfl

/-- At the beginning of every hour. -/
def everyHour : Expression where
  source := "0 0 * * * *"
  schedule := { everyMinute.schedule with minutes := [0] }
  reads := rfl

example : everyMinute.schedule.next? ⟨30, 5⟩ = some ⟨60, 0⟩ ∧ everyHour.schedule.next? ⟨30, 5⟩ = some ⟨3600, 0⟩ := by
  decide

end Expression
end DurableQueue
