import DurableQueue.Calendar
import Mathlib.Tactic.IntervalCases

/-! Dates and their numbers. Every number is that of one date that exists, and numbers are in the order of dates; so a
    date and its number say the same. Years begin in March here, so that the leap day is the last one of its year, and
    the months before it have the same days in every year. -/

namespace DurableQueue
namespace Date

/-- The days from 1 March of year 0 to 1 March of a year. -/
def yearStart (year : Int) : Int := 365 * year + year / 4 - year / 100 + year / 400

/-- The days from 1 March to the beginning of a month, which is counted from March. -/
def monthStart (month : Int) : Int := (153 * month + 2) / 5

/-- The year that a date belongs to if years begin in March. -/
def marchYear (d : Date) : Int := if d.month ≤ 2 then d.year - 1 else d.year

/-- The months from March to that of a date. -/
def marchMonth (d : Date) : Int := if d.month ≤ 2 then d.month + 9 else d.month - 3

/-! ### Years -/

theorem yearStart_le {a b : Int} (le : a ≤ b) : yearStart a ≤ yearStart b := by
  simp only [yearStart]
  omega

theorem yearStart_succ (year : Int) :
    yearStart (year + 1) = yearStart year + (if isLeap (year + 1) then 366 else 365) := by
  simp only [yearStart, isLeap, Bool.and_eq_true, Bool.or_eq_true, beq_iff_eq, bne_iff_ne]
  split <;> omega

theorem exists_year (n : Int) : ∃ year, yearStart year ≤ n ∧ n < yearStart (year + 1) := by
  -- The mean length of a year leads to this year, the one before or the one behind it.
  have low : yearStart (400 * n / 146097 - 1) ≤ n := by
    simp only [yearStart]
    omega
  have high : n < yearStart (400 * n / 146097 + 2) := by
    simp only [yearStart]
    omega
  by_cases first : n < yearStart (400 * n / 146097)
  · exact ⟨_, low, by rwa [Int.sub_add_cancel]⟩
  · by_cases second : n < yearStart (400 * n / 146097 + 1)
    · exact ⟨_, Int.not_lt.mp first, second⟩
    · exact ⟨_, Int.not_lt.mp second, by rwa [Int.add_assoc]⟩

theorem yearStart_era (era y : Int) : yearStart (y + era * 400) = era * daysPerEra + yearStart y := by
  simp only [yearStart, daysPerEra]
  omega

/-- The year to which a day of an era belongs. -/
theorem year_of_era {y k : Int} (h : 0 ≤ y) (h' : y < 400) (begins : yearStart y ≤ k) (ends : k < yearStart (y + 1)) :
    (k - k / 1460 + k / 36524 - k / 146096) / 365 = y := by
  have place : k - yearStart y ≤ 364 ∨ k - yearStart y = 365 ∧ y % 4 = 3 ∧ (y % 100 ≠ 99 ∨ y = 399) := by
    simp only [yearStart] at *
    omega
  simp only [yearStart] at begins place
  have century : y / 100 = 0 ∨ y / 100 = 1 ∨ y / 100 = 2 ∨ y / 100 = 3 := by omega
  rcases place with place | ⟨place, fourth, last⟩
  · -- The leap days that are taken off are those before the year, or one more if the year is almost over.
    have quad : k / 1460 = y / 4 ∨ k / 1460 = y / 4 + 1 := by omega
    have span : k / 36524 = y / 100 := by omega
    rcases century with c | c | c | c <;> rcases quad with q | q <;> omega
  · have quad : k / 1460 = y / 4 + 1 := by omega
    rcases last with last | rfl
    · have span : k / 36524 = y / 100 := by omega
      rcases century with c | c | c | c <;> omega
    · omega

/-! ### Months -/

theorem monthStart_le {a b : Int} (le : a ≤ b) : monthStart a ≤ monthStart b := by
  simp only [monthStart]
  omega

theorem month_of_year {k : Int} (begins : 0 ≤ k) (ends : k < 366) :
    0 ≤ (5 * k + 2) / 153 ∧ (5 * k + 2) / 153 ≤ 11 ∧ monthStart ((5 * k + 2) / 153) ≤ k ∧
      k < monthStart ((5 * k + 2) / 153 + 1) := by
  simp only [monthStart]
  omega

theorem dayNumber_eq (d : Date) :
    d.dayNumber = yearStart d.marchYear + monthStart d.marchMonth + d.day - 1 - epochShift := by
  have era := yearStart_era (d.marchYear / 400) (d.marchYear % 400)
  simp only [dayNumber, marchYear, marchMonth, yearStart, monthStart, daysPerEra] at *
  omega

theorem exists?_iff {d : Date} :
    d.exists? = true ↔ 1 ≤ d.month ∧ d.month ≤ 12 ∧ 1 ≤ d.day ∧ d.day ≤ daysInMonth d.year d.month := by
  simp [exists?, and_assoc]

theorem monthStart_succ {d : Date} (first : 1 ≤ d.month) (last : d.month ≤ 12) (other : d.month ≠ 2) :
    monthStart (d.marchMonth + 1) = monthStart d.marchMonth + daysInMonth d.year d.month := by
  obtain ⟨year, month, day⟩ := d
  simp only [marchMonth, daysInMonth, monthStart] at *
  interval_cases month <;> simp at other ⊢

/-- A date exists if its month does and it lies before the next month and the next year. Behind February, the last month
    of a year, the next year comes first. -/
theorem exists?_iff_march {d : Date} : d.exists? = true ↔ 1 ≤ d.month ∧ d.month ≤ 12 ∧ 1 ≤ d.day ∧
    monthStart d.marchMonth + d.day ≤ monthStart (d.marchMonth + 1) ∧
      yearStart d.marchYear + monthStart d.marchMonth + d.day ≤ yearStart (d.marchYear + 1) := by
  rw [exists?_iff]
  refine and_congr_right fun first => and_congr_right fun last => and_congr_right fun begins => ?_
  have length := yearStart_succ d.marchYear
  by_cases february : d.month = 2
  · have month : d.marchMonth = 11 := by simp [marchMonth, february]
    have year : d.marchYear + 1 = d.year := by simp [marchYear, february]
    rw [daysInMonth, if_pos february, month, year]
    rw [year] at length
    simp only [monthStart]
    cases leap : isLeap d.year with
    | true =>
      rw [if_pos leap] at length
      rw [if_pos rfl]
      omega
    | false =>
      rw [if_neg (Bool.eq_false_iff.mp leap)] at length
      rw [if_neg Bool.false_ne_true]
      omega
  · rw [monthStart_succ first last february]
    have early : monthStart d.marchMonth + daysInMonth d.year d.month ≤ 337 := by
      rw [← monthStart_succ first last february, marchMonth, monthStart]
      split <;> omega
    split at length <;> omega

/-- Numbers are in the order of dates. -/
theorem dayNumber_lt {a b : Date} (ha : a.exists? = true) (hb : b.exists? = true)
    (before : a.year < b.year ∨ a.year = b.year ∧ (a.month < b.month ∨ a.month = b.month ∧ a.day < b.day)) :
    a.dayNumber < b.dayNumber := by
  obtain ⟨_, _, -, month, year⟩ := exists?_iff_march.mp ha
  obtain ⟨_, _, begins, -, -⟩ := exists?_iff_march.mp hb
  have start : 0 ≤ b.marchMonth := by
    rw [marchMonth]
    omega
  have months : 0 ≤ monthStart b.marchMonth := monthStart_le start
  have march : a.marchYear < b.marchYear ∨ a.marchYear = b.marchYear ∧
      (a.marchMonth < b.marchMonth ∨ a.marchMonth = b.marchMonth ∧ a.day < b.day) := by
    simp only [marchYear, marchMonth]
    omega
  rw [dayNumber_eq, dayNumber_eq]
  rcases march with later | ⟨same, later | ⟨month', later⟩⟩
  · have := yearStart_le (Int.add_one_le_of_lt later)
    omega
  · have := monthStart_le (Int.add_one_le_of_lt later)
    rw [same]
    omega
  · rw [same, month']
    omega

theorem dayNumber_injective {a b : Date} (ha : a.exists? = true) (hb : b.exists? = true)
    (same : a.dayNumber = b.dayNumber) : a = b := by
  have hab := mt (dayNumber_lt ha hb)
  have hba := mt (dayNumber_lt hb ha)
  obtain ⟨y, m, d⟩ := a
  obtain ⟨y', m', d'⟩ := b
  simp only [Date.mk.injEq]
  simp only at hab hba
  omega

theorem ofDayNumber_eq {n y k m : Int} (begins : yearStart y ≤ n + epochShift)
    (ends : n + epochShift < yearStart (y + 1)) (hk : k = n + epochShift - yearStart y) (hm : m = (5 * k + 2) / 153) :
    ofDayNumber n =
      ⟨if m < 10 then y else y + 1, (if m < 10 then m + 3 else m - 9).toNat, (k - monthStart m + 1).toNat⟩ := by
  obtain ⟨era, r, hr, hr', rfl⟩ : ∃ era r, 0 ≤ r ∧ r < 400 ∧ y = r + era * 400 :=
    ⟨y / 400, y % 400, by omega, by omega, by omega⟩
  rw [yearStart_era] at begins hk
  rw [Int.add_right_comm, yearStart_era] at ends
  have low : 0 ≤ yearStart r := yearStart_le hr
  have high : yearStart (r + 1) ≤ daysPerEra := yearStart_le hr'
  have quotient : (n + epochShift) / daysPerEra = era := by
    simp only [daysPerEra] at *
    omega
  have remainder : (n + epochShift) % daysPerEra = yearStart r + k := by
    simp only [daysPerEra] at *
    omega
  have year := year_of_era hr hr' (k := yearStart r + k) (by omega) (by omega)
  have start : 365 * r + r / 4 - r / 100 = yearStart r := by
    simp only [yearStart]
    omega
  have rest : yearStart r + k - yearStart r = k := by omega
  have month : 0 ≤ m ∧ m ≤ 11 := by omega
  simp only [ofDayNumber, quotient, remainder, year, start, rest, ← hm, monthStart, Date.mk.injEq, and_true]
  split <;> split <;> omega

/-- The date that belongs to a number lies within its month and its year. -/
theorem ofDayNumber_march (n : Int) : ∃ d, ofDayNumber n = d ∧ 1 ≤ d.month ∧ d.month ≤ 12 ∧ 1 ≤ d.day ∧
    monthStart d.marchMonth + d.day ≤ monthStart (d.marchMonth + 1) ∧
    yearStart d.marchYear + monthStart d.marchMonth + d.day ≤ yearStart (d.marchYear + 1) ∧
    yearStart d.marchYear + monthStart d.marchMonth + d.day = n + epochShift + 1 := by
  obtain ⟨y, begins, ends⟩ := exists_year (n + epochShift)
  have length := yearStart_succ y
  have short : n + epochShift - yearStart y < 366 := by
    split at length <;> omega
  obtain ⟨first, last, start, stop⟩ := month_of_year (Int.sub_nonneg.mpr begins) short
  generalize hm : (5 * (n + epochShift - yearStart y) + 2) / 153 = m at *
  refine ⟨_, ofDayNumber_eq begins ends rfl hm.symm, ?_⟩
  generalize hd : Date.mk _ _ _ = d
  have year : d.marchYear = y := by
    rw [← hd]
    dsimp only [marchYear]
    split <;> split at * <;> omega
  have month : d.marchMonth = m := by
    rw [← hd]
    dsimp only [marchMonth]
    split <;> split at * <;> omega
  have day : (d.day : Int) = n + epochShift - yearStart y - monthStart m + 1 := by
    rw [← hd]
    dsimp only
    omega
  have real : 1 ≤ d.month ∧ d.month ≤ 12 := by
    rw [← hd]
    dsimp only
    omega
  rw [year, month, day]
  omega

theorem dayNumber_ofDayNumber (n : Int) : (ofDayNumber n).dayNumber = n := by
  obtain ⟨d, rfl, -, -, -, -, -, sum⟩ := ofDayNumber_march n
  rw [dayNumber_eq]
  omega

theorem exists?_ofDayNumber (n : Int) : (ofDayNumber n).exists? = true := by
  obtain ⟨d, rfl, first, last, begins, month, year, -⟩ := ofDayNumber_march n
  exact exists?_iff_march.mpr ⟨first, last, begins, month, year⟩

theorem ofDayNumber_dayNumber {d : Date} (real : d.exists? = true) : ofDayNumber d.dayNumber = d :=
  dayNumber_injective (exists?_ofDayNumber _) real (dayNumber_ofDayNumber _)

/-- All days of a year come before those of a later one. -/
theorem dayNumber_lt_of_year_lt {d : Date} {year : Int} (real : d.exists? = true) (later : d.year < year) :
    d.dayNumber < dayNumber ⟨year, 1, 1⟩ :=
  dayNumber_lt real (by simp [exists?, daysInMonth]) (Or.inl later)

end Date
end DurableQueue
