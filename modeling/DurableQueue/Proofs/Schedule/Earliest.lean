import DurableQueue.Proofs.Calendar
import DurableQueue.Proofs.Schedule.Fields
import DurableQueue.Proofs.Schedule.Next

/-! The next time of a schedule is the earliest one that its fields admit. Hours, minutes and seconds are ascending, so
    that the first time of a day that is met is the least one; a day without a time leaves the rest to the days behind
    it; and no schedule admits a day behind the last one that is searched. -/

namespace DurableQueue

/-- What is found is the least of all that have a property. Nothing is found only where nothing has it. -/
def Finds {α : Type} [LE α] (p : α → Prop) : Option α → Prop
  | some a => p a ∧ ∀ b, p b → a ≤ b
  | none => ∀ b, ¬p b

namespace Finds
variable {α : Type} [LE α] {p q : α → Prop} {o o' : Option α}

theorem congr (found : Finds p o) (same : ∀ a, p a ↔ q a) : Finds q o := by
  have : p = q := funext fun a => propext (same a)
  rwa [← this]

theorem map {β : Type} [LE β] {q : β → Prop} {f : α → β} (found : Finds p o) (ascends : ∀ a b, a ≤ b → f a ≤ f b)
    (image : ∀ b, q b ↔ ∃ a, p a ∧ f a = b) : Finds q (o.map f) := by
  cases o with
  | some a =>
    refine ⟨(image _).mpr ⟨a, found.1, rfl⟩, fun b has => ?_⟩
    obtain ⟨c, origin, rfl⟩ := (image b).mp has
    exact ascends a c (found.2 c origin)
  | none =>
    intro b has
    obtain ⟨c, origin, -⟩ := (image b).mp has
    exact found c origin

theorem eq [Std.IsPartialOrder α] (found : Finds p o) (again : Finds p o') : o = o' := by
  cases o with
  | some a =>
    cases o' with
    | some b => exact congrArg some (Std.le_antisymm (found.2 b again.1) (again.2 a found.1))
    | none => exact absurd found.1 (again a)
  | none =>
    cases o' with
    | some b => exact absurd again.1 (found b)
    | none => rfl

/-- Of fewer the least one comes no earlier. -/
theorem of_imp (found : Finds p o) (fewer : Finds q o') (imp : ∀ a, q a → p a) {a : α} (last : o' = some a) :
    ∃ b, o = some b ∧ b ≤ a := by
  subst last
  have has := imp a fewer.1
  cases o with
  | some b => exact ⟨b, rfl, found.2 a has⟩
  | none => exact absurd has (found a)

/-- Of two blocks that follow each other in order the second one is looked at where the first has none. -/
theorem or (first : Finds p o) (second : Finds q o') (ordered : ∀ a b, p a → q b → a ≤ b) :
    Finds (fun a => p a ∨ q a) (o.or o') := by
  cases o with
  | some a =>
    refine ⟨Or.inl first.1, ?_⟩
    rintro b (has | has)
    · exact first.2 b has
    · exact ordered a b first.1 has
  | none => exact second.congr fun a => (or_iff_right (first a)).symm

/-- Where blocks follow each other in order, the least of all lies in the first one that has any. -/
theorem findSome? {β : Type} {p : β → α → Prop} {f : β → Option α} {l : List β} (each : ∀ b ∈ l, Finds (p b) (f b))
    (ordered : l.Pairwise fun b c => ∀ x y, p b x → p c y → x ≤ y) :
    Finds (fun a => ∃ b ∈ l, p b a) (l.findSome? f) := by
  induction l with
  | nil =>
    rintro a ⟨_, ⟨⟩, -⟩
  | cons b rest ih =>
    obtain ⟨before, ordered⟩ := List.pairwise_cons.mp ordered
    have others := ih (fun c member => each c (List.mem_cons_of_mem _ member)) ordered
    have split : (b :: rest).findSome? f = (f b).or (rest.findSome? f) := by
      rw [List.findSome?_cons]
      cases f b <;> rfl
    rw [split]
    refine ((each b List.mem_cons_self).or others ?_).congr fun a => by simp
    rintro x y has ⟨c, member, has'⟩
    exact before c member x y has has'

end Finds

namespace Schedule
variable {s : Schedule}

theorem admitsTime_iff {time : Nat} :
    s.admitsTime time = true ↔ time / 3600 ∈ s.hours ∧ time / 60 % 60 ∈ s.minutes ∧ time % 60 ∈ s.seconds := by
  simp [admitsTime, and_assoc]

theorem admitsDay_iff {day : Int} : s.admitsDay day = true ↔
    (Date.ofDayNumber day).month ∈ s.months ∧ (Date.ofDayNumber day).day ∈ s.days ∧ Date.weekday day ∈ s.weekdays ∧
      ∃ year ∈ s.years, (year : Int) = (Date.ofDayNumber day).year := by
  simp [admitsDay, and_assoc]

/-- The parts of a second of the day, which is put together of them. -/
theorem clock_eq {hour minute second : Nat} (hm : minute ≤ 59) (hs : second ≤ 59) :
    (hour * 3600 + minute * 60 + second) / 3600 = hour ∧ (hour * 3600 + minute * 60 + second) / 60 % 60 = minute ∧
      (hour * 3600 + minute * 60 + second) % 60 = second := by
  omega

/-- The first time of a day from a given one on is the least one. -/
theorem WellFormed.finds_firstTime? (form : s.WellFormed) (least : Nat) :
    Finds (fun time => least ≤ time ∧ time < 86400 ∧ s.admitsTime time = true) (s.firstTime? least) := by
  have hours := Field.bounds_of_sublist form.hours
  have minutes := Field.bounds_of_sublist form.minutes
  have seconds := Field.bounds_of_sublist form.seconds
  simp only [Field.least, Field.greatest] at hours minutes seconds
  have all : Finds (fun time => ∃ hour ∈ s.hours, ∃ minute ∈ s.minutes, ∃ second ∈ s.seconds,
      time = hour * 3600 + minute * 60 + second ∧ least ≤ time) (s.firstTime? least) := by
    -- Seconds do not reach the next minute, nor minutes the next hour, so the times of a day are in order.
    refine .findSome? (fun hour _ => .findSome? (fun minute _ => .findSome? (fun second _ => ?_) ?_) ?_) ?_
    · dsimp only
      split
      · next late => exact ⟨⟨rfl, late⟩, fun _ has => Nat.le_of_eq has.1.symm⟩
      · next early =>
        rintro _ ⟨rfl, late⟩
        exact early late
    · refine (Field.ascending_of_sublist form.seconds).imp fun less x y hx hy => ?_
      omega
    · refine (Field.ascending_of_sublist form.minutes).imp fun less x y => ?_
      rintro ⟨a, ha, rfl, -⟩ ⟨b, hb, rfl, -⟩
      have := seconds a ha
      omega
    · refine (Field.ascending_of_sublist form.hours).imp fun less x y => ?_
      rintro ⟨a, ha, c, hc, rfl, -⟩ ⟨b, hb, d, hd, rfl, -⟩
      have := minutes a ha
      have := seconds c hc
      omega
  refine all.congr fun time => ?_
  rw [admitsTime_iff]
  constructor
  · rintro ⟨hour, hh, minute, hm, second, hs, rfl, late⟩
    have bound := hours hour hh
    have parts := @clock_eq hour minute second (minutes minute hm).2 (seconds second hs).2
    rw [parts.1, parts.2.1, parts.2.2]
    exact ⟨late, by omega, hh, hm, hs⟩
  · rintro ⟨late, -, hh, hm, hs⟩
    exact ⟨_, hh, _, hm, _, hs, by omega, late⟩

/-! ### Day by day -/

theorem admits_day {day : Int} {time : Nat} (within : time < 86400) :
    s.admits (day * Instant.secondsPerDay + time) = (s.admitsDay day && s.admitsTime time) := by
  have whole : (day * Instant.secondsPerDay + time) / Instant.secondsPerDay = day := by
    simp only [Instant.secondsPerDay]
    omega
  have rest : ((day * Instant.secondsPerDay + time) % Instant.secondsPerDay).toNat = time := by
    simp only [Instant.secondsPerDay]
    omega
  rw [admits, whole, rest]

/-- What a search finds on its first day, as a second from the beginning of 1970. -/
def firstOn? (s : Schedule) (day : Int) (least : Nat) : Option Int :=
  (if s.admitsDay day then s.firstTime? least else none).map fun time : Nat => day * Instant.secondsPerDay + time

theorem search_succ (days : Nat) (day : Int) (least : Nat) :
    s.search (days + 1) day least = (s.firstOn? day least).or (s.search days (day + 1) 0) := by
  rw [search, firstOn?]
  cases (if s.admitsDay day then s.firstTime? least else none) <;> rfl

theorem WellFormed.finds_firstOn? (form : s.WellFormed) (day : Int) (least : Nat) :
    Finds (fun n => day * Instant.secondsPerDay + least ≤ n ∧ n < (day + 1) * Instant.secondsPerDay ∧
      s.admits n = true) (s.firstOn? day least) := by
  have today : Finds
      (fun time => least ≤ time ∧ time < 86400 ∧ s.admits (day * Instant.secondsPerDay + time) = true)
      (if s.admitsDay day then s.firstTime? least else none) := by
    split
    · next admitted =>
      refine (form.finds_firstTime? least).congr fun time => and_congr_right fun _ => and_congr_right fun within => ?_
      rw [admits_day within, admitted, Bool.true_and]
    · next closed =>
      rintro time ⟨-, within, admitted⟩
      rw [admits_day within, Bool.eq_false_iff.mpr closed] at admitted
      cases admitted
  refine today.map (fun a b le => ?_) fun n => ⟨?_, ?_⟩
  · omega
  · rintro ⟨begins, ends, admitted⟩
    simp only [Instant.secondsPerDay] at *
    obtain ⟨time, rfl⟩ : ∃ time : Nat, n = day * 86400 + time := ⟨(n - day * 86400).toNat, by omega⟩
    exact ⟨time, ⟨by omega, by omega, admitted⟩, rfl⟩
  · rintro ⟨time, ⟨late, within, admitted⟩, rfl⟩
    simp only [Instant.secondsPerDay] at *
    exact ⟨by omega, by omega, admitted⟩

/-- Of the seconds that are searched the least one is found that is admitted. -/
theorem WellFormed.finds_search (form : s.WellFormed) (days : Nat) (day : Int) {least : Nat} (start : least ≤ 86400) :
    Finds (fun n => day * Instant.secondsPerDay + least ≤ n ∧ n < (day + days) * Instant.secondsPerDay ∧
      s.admits n = true) (s.search days day least) := by
  induction days generalizing day least with
  | zero =>
    rintro n ⟨begins, ends, -⟩
    simp only [Instant.secondsPerDay] at begins ends
    omega
  | succ days ih =>
    rw [search_succ]
    refine ((form.finds_firstOn? day least).or (ih (day + 1) (Nat.zero_le _)) ?_).congr fun n => ?_
    · rintro a b ⟨-, ends, -⟩ ⟨begins, -, -⟩
      omega
    · simp only [Instant.secondsPerDay]
      by_cases admitted : s.admits n = true
      · simp only [admitted, and_true]
        omega
      · simp [admitted]

/-! ### The years of a schedule -/

theorem WellFormed.le_lastDay (form : s.WellFormed) {day : Int} (admitted : s.admitsDay day = true) :
    day ≤ lastDay := by
  obtain ⟨-, -, -, year, member, same⟩ := admitsDay_iff.mp admitted
  have bound : year ≤ 2100 := (Field.bounds_of_sublist form.years year member).2
  have before : day < Date.dayNumber ⟨2101, 1, 1⟩ := by
    rw [← Date.dayNumber_ofDayNumber day]
    exact Date.dayNumber_lt_of_year_lt (Date.exists?_ofDayNumber day) (by omega)
  have next : Date.dayNumber ⟨2101, 1, 1⟩ = lastDay + 1 := by decide
  omega

theorem year_nonneg {day : Int} (since : 0 ≤ day) : 0 ≤ (Date.ofDayNumber day).year := by
  by_contra before
  have early : (Date.ofDayNumber day).year < 1970 := by omega
  have := Date.dayNumber_lt_of_year_lt (Date.exists?_ofDayNumber day) early
  rw [Date.dayNumber_ofDayNumber] at this
  exact Int.not_lt.mpr since this

/-- The search ends with the last year that a schedule can name, and so with all seconds that are admitted. -/
theorem WellFormed.finds_firstFrom? (form : s.WellFormed) {second : Int} (since : 0 ≤ second) :
    Finds (fun n => second ≤ n ∧ s.admits n = true) (s.firstFrom? second) := by
  have year := year_nonneg (Int.ediv_nonneg since (by decide : 0 ≤ Instant.secondsPerDay))
  rw [firstFrom?, if_neg (Int.not_lt.mpr year), Int.max_eq_left since]
  refine (form.finds_search _ _ ?_).congr fun n => ⟨?_, ?_⟩
  · simp only [Instant.secondsPerDay]
    omega
  · rintro ⟨begins, -, admitted⟩
    simp only [Instant.secondsPerDay] at begins
    exact ⟨by omega, admitted⟩
  · rintro ⟨begins, admitted⟩
    have bound := form.le_lastDay (Bool.and_eq_true_iff.mp admitted).1
    simp only [Instant.secondsPerDay] at *
    exact ⟨by omega, by omega, admitted⟩

/-! ### The next time -/

theorem WellFormed.finds_next? (form : s.WellFormed) {t : Instant} (since : 0 ≤ t.second) :
    Finds (fun u => t < u ∧ u.nano = 0 ∧ s.admits u.second = true) (s.next? t) := by
  have found := form.finds_firstFrom? (by omega : 0 ≤ t.second + 1)
  refine found.map (fun a b le => ?_) fun u => ⟨?_, ?_⟩
  · rw [Instant.le_def, Instant.lt_def]
    dsimp only
    omega
  · rintro ⟨later, whole, admitted⟩
    obtain ⟨second, nano⟩ := u
    cases whole
    rw [Instant.lt_def] at later
    dsimp only at later admitted
    exact ⟨second, ⟨by omega, admitted⟩, rfl⟩
  · rintro ⟨second, ⟨later, admitted⟩, rfl⟩
    exact ⟨Or.inl later, rfl, admitted⟩

end Schedule

/-- A date with a time of the day. -/
structure Moment where
  date : Date
  hour : Nat
  minute : Nat
  second : Nat

namespace Moment

/-- The calendar has the date, and the day the time. -/
def Real (m : Moment) : Prop := m.date.exists? = true ∧ m.hour < 24 ∧ m.minute < 60 ∧ m.second < 60

/-- When a moment begins. -/
def instant (m : Moment) : Instant :=
  ⟨Instant.startOf m.date + (m.hour * 3600 + m.minute * 60 + m.second : Nat), 0⟩

/-- The moment of a second, counted from the beginning of 1970. -/
def ofSecond (n : Int) : Moment where
  date := Date.ofDayNumber (n / Instant.secondsPerDay)
  hour := (n % Instant.secondsPerDay).toNat / 3600
  minute := (n % Instant.secondsPerDay).toNat / 60 % 60
  second := (n % Instant.secondsPerDay).toNat % 60

theorem real_ofSecond (n : Int) : (ofSecond n).Real := by
  refine ⟨Date.exists?_ofDayNumber _, ?_⟩
  simp only [ofSecond, Instant.secondsPerDay]
  omega

theorem instant_ofSecond (n : Int) : (ofSecond n).instant = ⟨n, 0⟩ := by
  simp only [instant, Instant.startOf, ofSecond, Date.dayNumber_ofDayNumber, Instant.secondsPerDay, Instant.mk.injEq,
    and_true]
  omega

theorem ofSecond_instant {m : Moment} (real : m.Real) : ofSecond m.instant.second = m := by
  obtain ⟨date, hour, minute, second⟩ := m
  obtain ⟨held, hours, minutes, seconds⟩ := real
  dsimp only at hours minutes seconds
  have day : (Instant.startOf date + (hour * 3600 + minute * 60 + second : Nat)) / Instant.secondsPerDay =
      date.dayNumber := by
    simp only [Instant.startOf, Instant.secondsPerDay]
    omega
  have time : ((Instant.startOf date + (hour * 3600 + minute * 60 + second : Nat)) % Instant.secondsPerDay).toNat =
      hour * 3600 + minute * 60 + second := by
    simp only [Instant.startOf, Instant.secondsPerDay]
    omega
  simp only [ofSecond, instant, day, time, Date.ofDayNumber_dayNumber held, Moment.mk.injEq, true_and]
  exact Schedule.clock_eq (by omega) (by omega)

end Moment

namespace Schedule
variable {s : Schedule}

/-- A moment is admitted by the fields for seconds, minutes, hours, days of the month, months and days of the week. -/
structure AdmitsMoment (s : Schedule) (m : Moment) : Prop where
  second : m.second ∈ s.seconds
  minute : m.minute ∈ s.minutes
  hour : m.hour ∈ s.hours
  day : m.date.day ∈ s.days
  month : m.date.month ∈ s.months
  weekday : Date.weekday m.date.dayNumber ∈ s.weekdays

/-- A time is the beginning of a moment that the six fields admit, in a year that the seventh one admits. -/
def Fires (s : Schedule) (u : Instant) : Prop :=
  ∃ m : Moment, m.Real ∧ m.instant = u ∧ s.AdmitsMoment m ∧ ∃ year ∈ s.years, (year : Int) = m.date.year

theorem admits_iff {n : Int} : s.admits n = true ↔
    s.AdmitsMoment (.ofSecond n) ∧ ∃ year ∈ s.years, (year : Int) = (Moment.ofSecond n).date.year := by
  have number : (Moment.ofSecond n).date.dayNumber = n / Instant.secondsPerDay := Date.dayNumber_ofDayNumber _
  rw [admits, Bool.and_eq_true, admitsDay_iff, admitsTime_iff]
  constructor
  · rintro ⟨⟨month, day, weekday, year⟩, hour, minute, second⟩
    exact ⟨⟨second, minute, hour, day, month, by rwa [number]⟩, year⟩
  · rintro ⟨fields, year⟩
    have weekday := fields.weekday
    rw [number] at weekday
    exact ⟨⟨fields.month, fields.day, weekday, year⟩, fields.hour, fields.minute, fields.second⟩

theorem fires_iff {u : Instant} : s.Fires u ↔ u.nano = 0 ∧ s.admits u.second = true := by
  constructor
  · rintro ⟨m, real, rfl, fields⟩
    refine ⟨rfl, ?_⟩
    rwa [admits_iff, Moment.ofSecond_instant real]
  · obtain ⟨n, nano⟩ := u
    rintro ⟨rfl, admitted⟩
    exact ⟨.ofSecond n, Moment.real_ofSecond n, Moment.instant_ofSecond n, admits_iff.mp admitted⟩

theorem WellFormed.finds_fires (form : s.WellFormed) {t : Instant} (since : 0 ≤ t.second) :
    Finds (fun u => t < u ∧ s.Fires u) (s.next? t) :=
  (form.finds_next? since).congr fun _ => and_congr_right fun _ => fires_iff.symm

theorem WellFormed.fires_sixFields (form : s.WellFormed) {u : Instant} (fires : s.Fires u) : s.sixFields.Fires u := by
  obtain ⟨m, real, begins, fields, year, member, same⟩ := fires
  exact ⟨m, real, begins, ⟨fields.second, fields.minute, fields.hour, fields.day, fields.month, fields.weekday⟩, year,
    form.years.subset member, same⟩

end Schedule

namespace Expression
variable {ε : Type}

theorem next_until_2100 (e : Expression) {t : Instant} (begins : 0 ≤ t.second)
    (ends : t.second < Instant.startOf ⟨2101, 1, 1⟩) (nano : t.nano < 2 * Span.perSecond) :
    (e.next t : Outcome ε (Option Instant)) = .ok (e.schedule.next? t) := by
  have within : t.subsecond < Span.perSecond := by
    unfold Instant.subsecond
    split
    · omega
    · next plain => simpa [Instant.isLeap] using plain
  have bound : (t.add (.ofSeconds 1)).second ≤ t.second + 1 := by
    unfold Instant.add
    split
    · exact Int.le_add_of_nonneg_right (by decide)
    · simp only [Instant.ofNanos, Span.ofSeconds, Span.perSecond] at within ⊢
      omega
  have last : Instant.startOf ⟨2101, 1, 1⟩ ≤ Instant.lastSecond := by decide
  have first : Instant.firstSecond ≤ 0 := by decide
  have held : (t.add (.ofSeconds 1)).InRange :=
    ⟨Int.le_trans first (Int.le_trans begins (Instant.second_le_add t _)), by omega⟩
  exact next_eq_ok.mpr ⟨by rw [Instant.add?, if_pos held]; rfl, rfl⟩

/-- In the years from 1970 to 2100 the next time of an expression is the least time behind the given one at which its
    fields admit the second, minute, hour, day of the month, month, day of the week and year, and there is none only
    where no such time is left. It is the least one for the first six fields alone exactly if that one fires, and so
    wherever the expression ends with its sixth field. A later time never has an earlier next one. -/
theorem next_exact (e : Expression) {t : Instant} (begins : Instant.startOf ⟨1970, 1, 1⟩ ≤ t.second)
    (ends : t.second < Instant.startOf ⟨2101, 1, 1⟩) (nano : t.nano < 2 * Span.perSecond) :
    ∃ next, (e.next t : Outcome ε (Option Instant)) = .ok next ∧
      Finds (fun u => t < u ∧ e.schedule.Fires u) next ∧
      Finds (fun u => t < u ∧ e.schedule.sixFields.Fires u) (e.schedule.sixFields.next? t) ∧
      (next = e.schedule.sixFields.next? t ↔
        ∀ u, e.schedule.sixFields.next? t = some u → e.schedule.Fires u) ∧
      (∀ six, Schedule.readSix e.source.toList = .ok (six, []) → next = e.schedule.sixFields.next? t) ∧
      ∀ (later : Instant) (next' : Option Instant), t ≤ later →
        (e.next later : Outcome ε (Option Instant)) = .ok next' → ∀ u, next' = some u → ∃ v, next = some v ∧ v ≤ u := by
  have since : 0 ≤ t.second := begins
  have form := e.wellFormed
  have found := form.finds_fires since
  have six := form.sixFields.finds_fires since
  refine ⟨_, next_until_2100 e since ends nano, found, six, ⟨?_, ?_⟩, ?_, ?_⟩
  · intro same u last
    rw [same, last] at found
    exact found.1.2
  · intro admitted
    refine found.eq ?_
    cases last : e.schedule.sixFields.next? t with
    | some u =>
      rw [last] at six
      exact ⟨⟨six.1.1, admitted u last⟩, fun v has => six.2 v ⟨has.1, form.fires_sixFields has.2⟩⟩
    | none =>
      rw [last] at six
      exact fun v has => six v ⟨has.1, form.fires_sixFields has.2⟩
  · intro first short
    rw [Schedule.sixFields_of_readSix e.reads short]
  · intro later next' le found' u last
    obtain ⟨-, rfl⟩ := next_eq_ok.mp found'
    have seconds : t.second ≤ later.second := by
      simp only [Instant.le_def, Instant.lt_def] at le
      omega
    exact found.of_imp (form.finds_fires (Int.le_trans since seconds))
      (fun v has => ⟨Std.lt_of_le_of_lt le has.1, has.2⟩) last

/-- At noon of every leap day. -/
def leapDays : Expression where
  source := "0 0 12 29 2 *"
  schedule := { everyMinute.schedule with minutes := [0], hours := [12], days := [29], months := [2] }
  reads := rfl

/-- The year 2028 has a leap day, and 2100 has none. -/
theorem next_exact_leapDays :
    (∃ next, (leapDays.next ⟨1832976000, 1999999999⟩ : Outcome Unit (Option Instant)) = .ok next ∧
      next = some ⟨1835438400, 0⟩ ∧ next = leapDays.schedule.sixFields.next? ⟨1832976000, 1999999999⟩ ∧
      Finds (fun u => ⟨1832976000, 1999999999⟩ < u ∧ leapDays.schedule.Fires u) next) ∧
    ∃ next, (leapDays.next ⟨4105123200, 0⟩ : Outcome Unit (Option Instant)) = .ok next ∧
      next = none ∧ Finds (fun u => ⟨4105123200, 0⟩ < u ∧ leapDays.schedule.Fires u) next := by
  obtain ⟨next, found, least, -, -, six, -⟩ :=
    @next_exact Unit leapDays ⟨1832976000, 1999999999⟩ (by decide) (by decide) (by decide)
  obtain ⟨last, found', least', -⟩ := @next_exact Unit leapDays ⟨4105123200, 0⟩ (by decide) (by decide) (by decide)
  have ahead : leapDays.schedule.next? ⟨1832976000, 1999999999⟩ = some ⟨1835438400, 0⟩ := by decide +kernel
  have ended : leapDays.schedule.next? ⟨4105123200, 0⟩ = none := by decide +kernel
  have first : next = some ⟨1835438400, 0⟩ := (next_eq_ok.mp found).2.symm.trans ahead
  exact ⟨⟨next, found, first, six leapDays.schedule rfl, least⟩, last, found',
    (next_eq_ok.mp found').2.symm.trans ended, least'⟩

/-- At the beginning of the year 2030. The text has six words, the last of which are the fields for the days of the week
    and for the years. -/
def newYear2030 : Expression where
  source := "0 0 0 1 1 *2030"
  schedule := { everyMinute.schedule with minutes := [0], hours := [0], days := [1], months := [1], years := [2030] }
  reads := rfl

/-- An expression with a field of years passes over times that its first six fields admit. -/
theorem next_passes_over :
    Expression.read "0 0 0 1 1 *2030" = .ok newYear2030 ∧
    (newYear2030.next ⟨1861919999, 0⟩ : Outcome Unit (Option Instant)) = .ok (some ⟨1893456000, 0⟩) ∧
    newYear2030.schedule.sixFields.Fires ⟨1861920000, 0⟩ ∧ (⟨1861919999, 0⟩ : Instant) < ⟨1861920000, 0⟩ ∧
    (⟨1861920000, 0⟩ : Instant) < ⟨1893456000, 0⟩ := by
  have next : newYear2030.schedule.next? ⟨1861919999, 0⟩ = some ⟨1893456000, 0⟩ := by decide +kernel
  exact ⟨rfl, next_eq_ok.mpr ⟨by decide, next⟩, Schedule.fires_iff.mpr ⟨rfl, by decide⟩, by decide, by decide⟩

end Expression
end DurableQueue
