import DurableQueue.Instant
import DurableQueue.Schedule.Reader

/-! When a schedule fires: which seconds it admits, and the first of them from a given one on. The search goes day by day
    to the end of the last year that a schedule can name, and within a day through hours, minutes and seconds. -/

namespace DurableQueue
namespace Schedule

/-- Whether a day is one on which the schedule fires: by month, by day of the month, by day of the week and by year. -/
def admitsDay (s : Schedule) (day : Int) : Bool :=
  let date := Date.ofDayNumber day
  s.months.contains date.month && s.days.contains date.day && s.weekdays.contains (Date.weekday day) &&
    s.years.any fun year => (year : Int) = date.year

/-- Whether a second of the day is one at which the schedule fires. -/
def admitsTime (s : Schedule) (time : Nat) : Bool :=
  s.hours.contains (time / 3600) && s.minutes.contains (time / 60 % 60) && s.seconds.contains (time % 60)

/-- Whether the schedule fires at a second, counted from the beginning of 1970. -/
def admits (s : Schedule) (second : Int) : Bool :=
  s.admitsDay (second / Instant.secondsPerDay) && s.admitsTime (second % Instant.secondsPerDay).toNat

/-- The first second of the day, from `least` on, at which the schedule fires. -/
def firstTime? (s : Schedule) (least : Nat) : Option Nat :=
  s.hours.findSome? fun hour => s.minutes.findSome? fun minute => s.seconds.findSome? fun second =>
    let time := hour * 3600 + minute * 60 + second
    if least ≤ time then some time else none

/-- The first second at which the schedule fires within so many days, the first of which begins at `least`. -/
def search (s : Schedule) : Nat → Int → Nat → Option Int
  | 0, _, _ => none
  | days + 1, day, least =>
    match if s.admitsDay day then s.firstTime? least else none with
    | some time => some (day * Instant.secondsPerDay + time)
    | none => s.search days (day + 1) 0

/-- The last day on which a schedule can fire. -/
def lastDay : Int := Date.dayNumber ⟨Field.years.greatest, 12, 31⟩

/-- The first second from a given one on at which the schedule fires. Before the first year that a schedule can name the
    search starts with that year, but before year 0 there is none. -/
def firstFrom? (s : Schedule) (second : Int) : Option Int :=
  if (Date.ofDayNumber (second / Instant.secondsPerDay)).year < 0 then none
  else
    let start := max second 0
    let day := start / Instant.secondsPerDay
    s.search (lastDay - day + 1).toNat day (start % Instant.secondsPerDay).toNat

/-- The first time after a given one at which the schedule fires. -/
def next? (s : Schedule) (t : Instant) : Option Instant := (s.firstFrom? (t.second + 1)).map fun second => ⟨second, 0⟩

end Schedule
end DurableQueue
