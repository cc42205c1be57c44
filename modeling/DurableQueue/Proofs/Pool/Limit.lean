import DurableQueue.Proofs.Pool.Run
import DurableQueue.Proofs.Settings

/-! The pool that the settings of a process make. Any number of handlers below the bound of a word is accepted with the
    settings, and there are fewer permits than that: a pool has as many permits as the settings say, or there is none. -/

namespace DurableQueue
namespace Pool

/-- The variable for the number of handlers asks for more than there can be permits. -/
def Overfull (lookup : Settings.Lookup) : Prop :=
  ∃ value n, lookup "DURAQ_MAX_CONCURRENCY" = some value ∧ Text.Numeral value n ∧ greatestLimit < n

section
variable {ε : Type} {lookup : Settings.Lookup} {s : Settings} {n : Nat}

theorem overfull_iff (given : Settings.Given lookup "DURAQ_MAX_CONCURRENCY" wordBound 10 n) :
    Overfull lookup ↔ greatestLimit < n := by
  constructor
  · rintro ⟨value, m, set, numeral, large⟩
    rcases given with ⟨unset, -⟩ | ⟨value', set', numeral', -⟩
    · cases unset.symm.trans set
    · cases set.symm.trans set'
      rwa [← numeral.unique numeral']
  · intro large
    rcases given with ⟨-, rfl⟩ | ⟨value, set, numeral, -⟩
    · exact absurd large (by decide)
    · exact ⟨value, n, set, numeral, large⟩

/-- Settings that have been read make a pool with as many permits as they say, all of them free, unless their variable
    asks for more permits than there can be: it is accepted all the same, and there is a crash instead of a pool. -/
theorem create_of_settings (reads : Settings.read lookup = .ok s) :
    (¬Overfull lookup → (create s.pool.maxConcurrency : Outcome ε Pool) =
      .ok { limit := s.pool.maxConcurrency, free := s.pool.maxConcurrency }) ∧
    (Overfull lookup → (create s.pool.maxConcurrency : Outcome ε Pool) = .crash) := by
  obtain ⟨n, given, number⟩ := (Settings.described_of_read reads).maxConcurrency
  rw [overfull_iff given]
  have same : max s.pool.maxConcurrency 1 = s.pool.maxConcurrency := by
    rw [number]
    split <;> omega
  constructor
  · intro fits
    have bound : s.pool.maxConcurrency ≤ greatestLimit := by
      rw [number]
      split
      · decide
      · exact Nat.not_lt.mp fits
    exact create_eq_ok.mpr (by rw [same]; exact ⟨bound, rfl⟩)
  · intro large
    have beyond : greatestLimit < max s.pool.maxConcurrency 1 := by
      rwa [same, number, if_neg (by omega)]
    exact if_pos beyond

end

/-- One handler more than there can be permits. -/
def crowded : Settings.Lookup :=
  Settings.only [("DATABASE_URL", "db"), ("DURAQ_MAX_CONCURRENCY", "2305843009213693952")]

/-- As many handlers as there can be permits. -/
def brimful : Settings.Lookup :=
  Settings.only [("DATABASE_URL", "db"), ("DURAQ_MAX_CONCURRENCY", "2305843009213693951")]

theorem create_of_settings_brimful :
    (∃ s, Settings.read brimful = .ok s ∧ (create s.pool.maxConcurrency : Outcome PoolFault Pool) =
      .ok { limit := 2305843009213693951, free := 2305843009213693951 }) ∧
    ∃ s, Settings.read crowded = .ok s ∧ (create s.pool.maxConcurrency : Outcome PoolFault Pool) = .crash := by
  have numeral : Text.Numeral "2305843009213693951" 2305843009213693951 :=
    (Text.readUnsigned_trim_eq_ok_iff.mp (rfl : Text.readUnsigned wordBound _ = .ok _)).1
  have numeral' : Text.Numeral "2305843009213693952" 2305843009213693952 :=
    (Text.readUnsigned_trim_eq_ok_iff.mp (rfl : Text.readUnsigned wordBound _ = .ok _)).1
  have fits : ¬Overfull brimful := by
    rintro ⟨value, n, set, another, large⟩
    obtain rfl : "2305843009213693951" = value := Option.some.inj set
    rw [another.unique numeral] at large
    exact Nat.lt_irrefl _ large
  have large : Overfull crowded := ⟨_, _, rfl, numeral', by decide⟩
  exact ⟨⟨_, rfl, (create_of_settings rfl).1 fits⟩, _, rfl, (create_of_settings rfl).2 large⟩

/-- Settings are accepted and make no pool. -/
theorem settings_without_pool : ¬∀ lookup s, Settings.read lookup = .ok s →
    ∃ p, (create s.pool.maxConcurrency : Outcome PoolFault Pool) = .ok p := by
  intro usable
  have reads : ∃ s, Settings.read crowded = .ok s ∧ s.pool.maxConcurrency = 2305843009213693952 := ⟨_, rfl, rfl⟩
  obtain ⟨s, reads, number⟩ := reads
  obtain ⟨p, made⟩ := usable crowded s reads
  rw [number] at made
  exact absurd (create_eq_ok.mp made).1 (by decide)

end Pool
end DurableQueue
