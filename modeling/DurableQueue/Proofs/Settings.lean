import DurableQueue.Outcome
import DurableQueue.Proofs.Text.Number
import DurableQueue.Settings

/-! What the settings of a process are read from. Nine variables hold numbers and are read in a fixed order; the settings
    are refused at the first of them whose text is no number below its bound, after the address of the database has been
    found. Otherwise each setting is what its own variable says, or the usual value where that is not set. -/

namespace DurableQueue
namespace Settings

/-- A variable that holds a number: its name, and what its numbers are below. -/
structure Variable where
  key : String
  bound : Nat

/-- The variables that hold numbers, in the order in which they are read. -/
def numbers : List Variable :=
  [⟨"DURAQ_CONSUMER_POLL_MS", wordBound⟩, ⟨"DURAQ_MAX_CONCURRENCY", wordBound⟩,
    ⟨"DURAQ_SHUTDOWN_TIMEOUT_SECS", wordBound⟩, ⟨"DURAQ_SCHEDULER_POLL_MS", wordBound⟩,
    ⟨"DURAQ_SCHEDULER_BATCH", wordBound⟩, ⟨"DURAQ_DEFAULT_MAX_ATTEMPTS", counterBound⟩,
    ⟨"DURAQ_REAPER_INTERVAL_SECS", wordBound⟩, ⟨"DURAQ_STUCK_TIMEOUT_SECS", wordBound⟩,
    ⟨"DURAQ_MAX_CONNECTIONS", counterBound⟩]

/-! ### One variable -/

section
variable {lookup other : Lookup} {key : String} {bound usual n : Nat} {v : Variable}

/-- The number that a setting is made of: the one that its variable holds, or the usual one if it is not set. -/
def Given (lookup : Lookup) (key : String) (bound usual n : Nat) : Prop :=
  lookup key = none ∧ n = usual ∨ ∃ value, lookup key = some value ∧ Text.Numeral value n ∧ n < bound

/-- The variable is not set, or holds a number below its bound. -/
def Variable.Right (lookup : Lookup) (v : Variable) : Prop :=
  ∀ value, lookup v.key = some value → ∃ n, Text.Numeral value n ∧ n < v.bound

/-- The variable holds a text that is no number below its bound, for a reason. -/
structure Variable.Wrong (lookup : Lookup) (v : Variable) (value : String) (reason : Text.NumberFault) : Prop where
  set : lookup v.key = some value
  beyond : ∀ n, Text.Numeral value n → v.bound ≤ n
  refused : Text.readUnsigned v.bound (Text.trim value) = .error reason

theorem Given.unique {m : Nat} (same : lookup key = other key) (first : Given lookup key bound usual m)
    (second : Given other key bound usual n) : m = n := by
  rw [Given, same] at first
  rcases first with ⟨unset, rfl⟩ | ⟨value, set, numeral, -⟩ <;>
    rcases second with ⟨unset', rfl⟩ | ⟨value', set', numeral', -⟩
  · rfl
  · cases unset.symm.trans set'
  · cases unset'.symm.trans set
  · cases set.symm.trans set'
    exact numeral.unique numeral'

theorem Variable.not_wrong_iff : (∀ value reason, ¬v.Wrong lookup value reason) ↔ v.Right lookup := by
  constructor
  · intro never value set
    by_contra none
    have beyond : ∀ n, Text.Numeral value n → v.bound ≤ n := fun n numeral =>
      Nat.not_lt.mp fun below => none ⟨n, numeral, below⟩
    obtain ⟨reason, refused⟩ := Text.exists_readUnsigned_error_iff.mpr beyond
    exact never value reason ⟨set, beyond, refused⟩
  · intro right value reason wrong
    obtain ⟨n, numeral, below⟩ := right value wrong.set
    exact absurd (wrong.beyond n numeral) (Nat.not_le.mpr below)

theorem number_of_none (unset : lookup key = none) : number lookup key bound usual = .ok usual := by
  rw [number, unset]

theorem number_of_some {value : String} (set : lookup key = some value) : number lookup key bound usual =
    (Text.readUnsigned bound (Text.trim value)).mapError (.invalid key value) := by
  rw [number, set]
  cases reads : Text.readUnsigned bound (Text.trim value) <;> simp [reads, Except.mapError]

theorem number_eq_ok_iff : number lookup key bound usual = .ok n ↔ Given lookup key bound usual n := by
  cases set : lookup key with
  | none => simp [number_of_none set, Given, set, eq_comm]
  | some value =>
    rw [number_of_some set, mapError_eq_ok_iff, Text.readUnsigned_trim_eq_ok_iff]
    simp [Given, set]

theorem number_eq_error_iff {fault : SettingsFault} : number lookup key bound usual = .error fault ↔
    ∃ value reason, Variable.Wrong lookup ⟨key, bound⟩ value reason ∧ fault = .invalid key value reason := by
  cases set : lookup key with
  | none =>
    rw [number_of_none set]
    refine ⟨nofun, ?_⟩
    rintro ⟨value, reason, wrong, -⟩
    cases set.symm.trans wrong.set
  | some value =>
    rw [number_of_some set]
    constructor
    · cases reads : Text.readUnsigned bound (Text.trim value) with
      | ok n => exact nofun
      | error reason =>
        rintro ⟨⟩
        exact ⟨value, reason, ⟨set, Text.exists_readUnsigned_error_iff.mp ⟨reason, reads⟩, reads⟩, rfl⟩
    · rintro ⟨_, reason, wrong, rfl⟩
      cases set.symm.trans wrong.set
      rw [wrong.refused]
      rfl

theorem millis_eq_ok_iff {usual d : Span} : millis lookup key usual = .ok d ↔
    ∃ n, Given lookup key wordBound (usual.nanos / Span.perMilli) n ∧ d = .ofMillis n := by
  simp only [millis, bind_eq_ok_iff, number_eq_ok_iff, Except.ok.injEq]
  simp only [eq_comm]

theorem secs_eq_ok_iff {usual d : Span} : secs lookup key usual = .ok d ↔
    ∃ n, Given lookup key wordBound usual.seconds n ∧ d = .ofSeconds n := by
  simp only [secs, bind_eq_ok_iff, number_eq_ok_iff, Except.ok.injEq]
  simp only [eq_comm]

end

/-! ### Variables one after another -/

section
variable {lookup : Lookup} {v : Variable} {rest : List Variable} {fault : SettingsFault}

/-- The fault of the first variable that is wrong: all before it are right. -/
def FirstWrong (lookup : Lookup) (vs : List Variable) (fault : SettingsFault) : Prop :=
  ∃ before v after value reason, vs = before ++ v :: after ∧ (∀ w ∈ before, w.Right lookup) ∧
    v.Wrong lookup value reason ∧ fault = .invalid v.key value reason

theorem not_firstWrong_nil : ¬FirstWrong lookup [] fault := by
  rintro ⟨before, v, after, -, -, split, -⟩
  exact List.append_ne_nil_of_right_ne_nil before (by simp) split.symm

theorem firstWrong_cons_iff : FirstWrong lookup (v :: rest) fault ↔
    (∃ value reason, v.Wrong lookup value reason ∧ fault = .invalid v.key value reason) ∨
      v.Right lookup ∧ FirstWrong lookup rest fault := by
  constructor
  · rintro ⟨before, w, after, value, reason, split, right, wrong, rfl⟩
    cases before with
    | nil =>
      cases split
      exact Or.inl ⟨value, reason, wrong, rfl⟩
    | cons first before =>
      cases split
      rw [List.forall_mem_cons] at right
      exact Or.inr ⟨right.1, before, w, after, value, reason, rfl, right.2, wrong, rfl⟩
  · rintro (⟨value, reason, wrong, rfl⟩ | ⟨right, before, w, after, value, reason, rfl, others, wrong, rfl⟩)
    · exact ⟨[], v, rest, value, reason, rfl, by simp, wrong, rfl⟩
    · exact ⟨v :: before, w, after, value, reason, rfl, List.forall_mem_cons.mpr ⟨right, others⟩, wrong, rfl⟩

/-- There is no first variable that is wrong exactly if all are right. -/
theorem forall_not_firstWrong_iff {vs : List Variable} :
    (∀ fault, ¬FirstWrong lookup vs fault) ↔ ∀ v ∈ vs, v.Right lookup := by
  induction vs with
  | nil => exact iff_of_true (fun _ => not_firstWrong_nil) (by simp)
  | cons v rest ih =>
    rw [List.forall_mem_cons, ← ih]
    constructor
    · intro none
      have right : v.Right lookup := Variable.not_wrong_iff.mp fun value reason wrong =>
        none _ (firstWrong_cons_iff.mpr (Or.inl ⟨value, reason, wrong, rfl⟩))
      exact ⟨right, fun fault first => none fault (firstWrong_cons_iff.mpr (Or.inr ⟨right, first⟩))⟩
    · rintro ⟨right, none⟩ fault first
      rcases firstWrong_cons_iff.mp first with ⟨value, reason, wrong, -⟩ | ⟨-, later⟩
      · exact Variable.not_wrong_iff.mpr right value reason wrong
      · exact none fault later

/-- A reading that fails at the first of some variables that is wrong, and only there. -/
def FailsAtFirst {α : Type} (lookup : Lookup) (vs : List Variable) (x : Except SettingsFault α) : Prop :=
  ∀ fault, x = .error fault ↔ FirstWrong lookup vs fault

variable {α β : Type}

theorem failsAtFirst_ok (a : α) : FailsAtFirst lookup [] (.ok a) := fun _ => iff_of_false nofun not_firstWrong_nil

/-- A reading of one variable, and of others behind it whatever it has given. -/
theorem FailsAtFirst.bind {x : Except SettingsFault α} {f : α → Except SettingsFault β}
    (one : FailsAtFirst lookup [v] x) (others : ∀ a, FailsAtFirst lookup rest (f a)) :
    FailsAtFirst lookup (v :: rest) (x >>= f) := by
  intro fault
  have alone : ∀ fault, x = .error fault ↔
      ∃ value reason, v.Wrong lookup value reason ∧ fault = .invalid v.key value reason := fun fault => by
    rw [one, firstWrong_cons_iff, or_iff_left fun h => not_firstWrong_nil h.2]
  rw [bind_eq_error_iff, firstWrong_cons_iff, alone]
  refine or_congr_right ⟨?_, ?_⟩
  · rintro ⟨a, reads, fails⟩
    refine ⟨Variable.not_wrong_iff.mp fun value reason wrong => ?_, (others a fault).mp fails⟩
    cases reads.symm.trans ((alone _).mpr ⟨value, reason, wrong, rfl⟩)
  · rintro ⟨right, first⟩
    cases reads : x with
    | ok a => exact ⟨a, rfl, (others a fault).mpr first⟩
    | error stopped =>
      obtain ⟨value, reason, wrong, -⟩ := (alone stopped).mp reads
      exact absurd wrong (Variable.not_wrong_iff.mpr right value reason)

theorem failsAtFirst_number (key : String) (bound usual : Nat) :
    FailsAtFirst lookup [⟨key, bound⟩] (number lookup key bound usual) := fun fault => by
  rw [number_eq_error_iff, firstWrong_cons_iff, or_iff_left fun h => not_firstWrong_nil h.2]

theorem failsAtFirst_millis (key : String) (usual : Span) :
    FailsAtFirst lookup [⟨key, wordBound⟩] (millis lookup key usual) :=
  (failsAtFirst_number _ _ _).bind fun _ => failsAtFirst_ok _

theorem failsAtFirst_secs (key : String) (usual : Span) :
    FailsAtFirst lookup [⟨key, wordBound⟩] (secs lookup key usual) :=
  (failsAtFirst_number _ _ _).bind fun _ => failsAtFirst_ok _

end

/-! ### All variables -/

section
variable {lookup other : Lookup} {s t : Settings}

/-- The address of the database is set, and is more than white space. -/
def HasDatabase (lookup : Lookup) : Prop :=
  ∃ url, lookup "DATABASE_URL" = some url ∧ ∃ c ∈ url.toList, Text.isBlank c = false

theorem hasDatabase_iff :
    HasDatabase lookup ↔ ∃ url, (lookup "DATABASE_URL").filter (!Text.allBlank ·) = some url := by
  simp [HasDatabase, Option.filter_eq_some_iff, Text.allBlank]

theorem read_of_no_database (unset : ¬HasDatabase lookup) : read lookup = .error (.missing "DATABASE_URL") := by
  have none : (lookup "DATABASE_URL").filter (!Text.allBlank ·) = none :=
    Option.eq_none_iff_forall_ne_some.mpr fun url found => unset (hasDatabase_iff.mpr ⟨url, found⟩)
  rw [read, none]
  rfl

theorem hasDatabase_of_read (reads : read lookup = .ok s) : HasDatabase lookup := by
  by_contra unset
  cases (read_of_no_database unset).symm.trans reads

/-- With an address of the database, the numbers are read in their order. -/
theorem failsAtFirst_read (found : HasDatabase lookup) : FailsAtFirst lookup numbers (read lookup) := by
  obtain ⟨url, found⟩ := hasDatabase_iff.mp found
  rw [read, found]
  refine (failsAtFirst_millis _ _).bind fun poll => ?_
  refine (failsAtFirst_number _ _ _).bind fun concurrency => ?_
  refine (failsAtFirst_secs _ _).bind fun shutdown => ?_
  refine (failsAtFirst_millis _ _).bind fun tick => ?_
  refine (failsAtFirst_number _ _ _).bind fun batch => ?_
  refine (failsAtFirst_number _ _ _).bind fun attempts => ?_
  refine (failsAtFirst_secs _ _).bind fun interval => ?_
  refine (failsAtFirst_secs _ _).bind fun stuck => ?_
  exact (failsAtFirst_number _ _ _).bind fun connections => failsAtFirst_ok _

/-- Each setting is what its own variable says. -/
structure Described (lookup : Lookup) (s : Settings) : Prop where
  databaseUrl : lookup "DATABASE_URL" = some s.databaseUrl
  pollInterval : ∃ n, Given lookup "DURAQ_CONSUMER_POLL_MS" wordBound 1000 n ∧ s.pool.pollInterval = .ofMillis n
  maxConcurrency : ∃ n, Given lookup "DURAQ_MAX_CONCURRENCY" wordBound 10 n ∧
    s.pool.maxConcurrency = if n = 0 then 1 else n
  shutdownTimeout : ∃ n, Given lookup "DURAQ_SHUTDOWN_TIMEOUT_SECS" wordBound 30 n ∧
    s.pool.shutdownTimeout = .ofSeconds n
  tickInterval : ∃ n, Given lookup "DURAQ_SCHEDULER_POLL_MS" wordBound 10000 n ∧ s.scheduler.pollInterval = .ofMillis n
  batchSize : ∃ n, Given lookup "DURAQ_SCHEDULER_BATCH" wordBound 100 n ∧
    s.scheduler.batchSize = if n = 0 then 1 else n
  maxAttempts : Given lookup "DURAQ_DEFAULT_MAX_ATTEMPTS" counterBound 3 s.scheduler.maxAttempts
  schedulerStop : s.scheduler.stopTimeout = .ofSeconds 10
  reaperInterval : ∃ n, Given lookup "DURAQ_REAPER_INTERVAL_SECS" wordBound 60 n ∧ s.reaper.interval = .ofSeconds n
  stuckTimeout : ∃ n, Given lookup "DURAQ_STUCK_TIMEOUT_SECS" wordBound 600 n ∧ s.reaper.stuckTimeout = .ofSeconds n
  reaperStop : s.reaper.stopTimeout = .ofSeconds 10
  maxConnections : Given lookup "DURAQ_MAX_CONNECTIONS" counterBound 10 s.maxConnections
  cronFile : s.cronFile = lookup "DURAQ_CRON_FILE"

theorem max_one (n : Nat) : max n 1 = if n = 0 then 1 else n := by
  split <;> omega

theorem described_of_read (reads : read lookup = .ok s) : Described lookup s := by
  obtain ⟨url, found⟩ := hasDatabase_iff.mp (hasDatabase_of_read reads)
  rw [read, found] at reads
  obtain ⟨_, ⟨⟩, reads⟩ := bind_eq_ok_iff.mp reads
  obtain ⟨_, poll, reads⟩ := bind_eq_ok_iff.mp reads
  obtain ⟨_, concurrency, reads⟩ := bind_eq_ok_iff.mp reads
  obtain ⟨_, shutdown, reads⟩ := bind_eq_ok_iff.mp reads
  obtain ⟨_, tick, reads⟩ := bind_eq_ok_iff.mp reads
  obtain ⟨_, batch, reads⟩ := bind_eq_ok_iff.mp reads
  obtain ⟨_, attempts, reads⟩ := bind_eq_ok_iff.mp reads
  obtain ⟨_, interval, reads⟩ := bind_eq_ok_iff.mp reads
  obtain ⟨_, stuck, reads⟩ := bind_eq_ok_iff.mp reads
  obtain ⟨_, connections, ⟨⟩⟩ := bind_eq_ok_iff.mp reads
  exact {
    databaseUrl := (Option.filter_eq_some_iff.mp found).1
    pollInterval := millis_eq_ok_iff.mp poll
    maxConcurrency := ⟨_, number_eq_ok_iff.mp concurrency, max_one _⟩
    shutdownTimeout := secs_eq_ok_iff.mp shutdown
    tickInterval := millis_eq_ok_iff.mp tick
    batchSize := ⟨_, number_eq_ok_iff.mp batch, max_one _⟩
    maxAttempts := number_eq_ok_iff.mp attempts
    schedulerStop := rfl
    reaperInterval := secs_eq_ok_iff.mp interval
    stuckTimeout := secs_eq_ok_iff.mp stuck
    reaperStop := rfl
    maxConnections := number_eq_ok_iff.mp connections
    cronFile := rfl }

/-- Settings from two sources differ only where the variable of a setting does. -/
structure Alike (lookup other : Lookup) (s t : Settings) : Prop where
  databaseUrl : lookup "DATABASE_URL" = other "DATABASE_URL" → s.databaseUrl = t.databaseUrl
  pollInterval : lookup "DURAQ_CONSUMER_POLL_MS" = other "DURAQ_CONSUMER_POLL_MS" →
    s.pool.pollInterval = t.pool.pollInterval
  maxConcurrency : lookup "DURAQ_MAX_CONCURRENCY" = other "DURAQ_MAX_CONCURRENCY" →
    s.pool.maxConcurrency = t.pool.maxConcurrency
  shutdownTimeout : lookup "DURAQ_SHUTDOWN_TIMEOUT_SECS" = other "DURAQ_SHUTDOWN_TIMEOUT_SECS" →
    s.pool.shutdownTimeout = t.pool.shutdownTimeout
  tickInterval : lookup "DURAQ_SCHEDULER_POLL_MS" = other "DURAQ_SCHEDULER_POLL_MS" →
    s.scheduler.pollInterval = t.scheduler.pollInterval
  batchSize : lookup "DURAQ_SCHEDULER_BATCH" = other "DURAQ_SCHEDULER_BATCH" →
    s.scheduler.batchSize = t.scheduler.batchSize
  maxAttempts : lookup "DURAQ_DEFAULT_MAX_ATTEMPTS" = other "DURAQ_DEFAULT_MAX_ATTEMPTS" →
    s.scheduler.maxAttempts = t.scheduler.maxAttempts
  schedulerStop : s.scheduler.stopTimeout = t.scheduler.stopTimeout
  reaperInterval : lookup "DURAQ_REAPER_INTERVAL_SECS" = other "DURAQ_REAPER_INTERVAL_SECS" →
    s.reaper.interval = t.reaper.interval
  stuckTimeout : lookup "DURAQ_STUCK_TIMEOUT_SECS" = other "DURAQ_STUCK_TIMEOUT_SECS" →
    s.reaper.stuckTimeout = t.reaper.stuckTimeout
  reaperStop : s.reaper.stopTimeout = t.reaper.stopTimeout
  maxConnections : lookup "DURAQ_MAX_CONNECTIONS" = other "DURAQ_MAX_CONNECTIONS" → s.maxConnections = t.maxConnections
  cronFile : lookup "DURAQ_CRON_FILE" = other "DURAQ_CRON_FILE" → s.cronFile = t.cronFile

theorem eq_of_given {α : Type} {key : String} {bound usual : Nat} {f : Nat → α} {a b : α}
    (first : ∃ n, Given lookup key bound usual n ∧ a = f n) (second : ∃ n, Given other key bound usual n ∧ b = f n)
    (same : lookup key = other key) : a = b := by
  obtain ⟨m, given, rfl⟩ := first
  obtain ⟨n, given', rfl⟩ := second
  rw [given.unique same given']

theorem Described.alike (first : Described lookup s) (second : Described other t) : Alike lookup other s t where
  databaseUrl same := Option.some.inj (first.databaseUrl.symm.trans (same.trans second.databaseUrl))
  pollInterval := eq_of_given first.pollInterval second.pollInterval
  maxConcurrency := eq_of_given first.maxConcurrency second.maxConcurrency
  shutdownTimeout := eq_of_given first.shutdownTimeout second.shutdownTimeout
  tickInterval := eq_of_given first.tickInterval second.tickInterval
  batchSize := eq_of_given first.batchSize second.batchSize
  maxAttempts same := first.maxAttempts.unique same second.maxAttempts
  schedulerStop := first.schedulerStop.trans second.schedulerStop.symm
  reaperInterval := eq_of_given first.reaperInterval second.reaperInterval
  stuckTimeout := eq_of_given first.stuckTimeout second.stuckTimeout
  reaperStop := first.reaperStop.trans second.reaperStop.symm
  maxConnections same := first.maxConnections.unique same second.maxConnections
  cronFile same := first.cronFile.trans (same.trans second.cronFile.symm)

/-- Settings are read exactly if there is an address of the database and every variable for a number is right. If not,
    the missing address is the fault, or else the first variable that is wrong, with its text as it stands. What is read
    is what each variable says, the usual value where it is not set, and hangs on no other variable. -/
theorem read_exact (lookup : Lookup) :
    ((∃ s, read lookup = .ok s) ↔ HasDatabase lookup ∧ ∀ v ∈ numbers, v.Right lookup) ∧
    (∀ fault, read lookup = .error fault ↔ ¬HasDatabase lookup ∧ fault = .missing "DATABASE_URL" ∨
      HasDatabase lookup ∧ FirstWrong lookup numbers fault) ∧
    ∀ s, read lookup = .ok s → Described lookup s ∧
      ∀ other t, read other = .ok t → Alike lookup other s t := by
  have faulty : ∀ fault, read lookup = .error fault ↔ ¬HasDatabase lookup ∧ fault = .missing "DATABASE_URL" ∨
      HasDatabase lookup ∧ FirstWrong lookup numbers fault := by
    intro fault
    by_cases found : HasDatabase lookup
    · rw [failsAtFirst_read found]
      simp [found]
    · rw [read_of_no_database found]
      simp [found, eq_comm]
  refine ⟨?_, faulty, fun s reads => ⟨described_of_read reads, fun other t reads' => ?_⟩⟩
  · rw [← forall_not_firstWrong_iff]
    constructor
    · rintro ⟨s, reads⟩
      have found := hasDatabase_of_read reads
      refine ⟨found, fun fault first => ?_⟩
      cases reads.symm.trans ((failsAtFirst_read found fault).mpr first)
    · rintro ⟨found, none⟩
      cases reads : read lookup with
      | ok s => exact ⟨s, rfl⟩
      | error fault => exact absurd ((failsAtFirst_read found fault).mp reads) (none fault)
  · exact (described_of_read reads).alike (described_of_read reads')

end

/-- The variables that are named here, and no others. -/
def only (entries : List (String × String)) : Lookup := fun key => entries.lookup key

/-- Numbers with a sign, zeros and white space around them, and no handlers at all. -/
def spaced : Lookup := only
  [("DATABASE_URL", " db "), ("DURAQ_CONSUMER_POLL_MS", "\u2003+0250\n"), ("DURAQ_MAX_CONCURRENCY", "0")]

/-- Two wrong variables: a word, and behind it a number that is too large by one. -/
def careless : Lookup := only
  [("DATABASE_URL", " db "), ("DURAQ_MAX_CONNECTIONS", "4294967296"), ("DURAQ_STUCK_TIMEOUT_SECS", " soon ")]

theorem read_exact_spaced :
    (∃ s t, read spaced = .ok s ∧ read (only [("DATABASE_URL", " db ")]) = .ok t ∧ Described spaced s ∧
      s.pool.pollInterval = .ofMillis 250 ∧ s.pool.maxConcurrency = 1 ∧ s.maxConnections = t.maxConnections) ∧
    read careless = .error (.invalid "DURAQ_STUCK_TIMEOUT_SECS" " soon " .invalidDigit) ∧
    FirstWrong careless numbers (.invalid "DURAQ_STUCK_TIMEOUT_SECS" " soon " .invalidDigit) := by
  have reads : ∃ s t, read spaced = .ok s ∧ read (only [("DATABASE_URL", " db ")]) = .ok t ∧
    s.pool.pollInterval = .ofMillis 250 ∧ s.pool.maxConcurrency = 1 := ⟨_, _, rfl, rfl, rfl, rfl⟩
  obtain ⟨s, t, reads, reads', poll, concurrency⟩ := reads
  obtain ⟨described, alike⟩ := (read_exact spaced).2.2 s reads
  have refused : read careless = .error (.invalid "DURAQ_STUCK_TIMEOUT_SECS" " soon " .invalidDigit) := rfl
  obtain ⟨-, missing⟩ | ⟨-, first⟩ := ((read_exact careless).2.1 _).mp refused
  · cases missing
  · exact ⟨⟨s, t, reads, reads', described, poll, concurrency, (alike _ t reads').maxConnections rfl⟩, refused, first⟩

end Settings
end DurableQueue
