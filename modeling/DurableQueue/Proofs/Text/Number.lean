import DurableQueue.Text.Number
import Mathlib.Data.List.DropRight

/-! Numbers in texts. White space around a number does not count, a plus sign may stand in front of it, and one or more
    digits write it. What is written so and lies below the bound is read, and nothing else is: however many digits there
    are, none of them leads past the bound that the whole number does not pass. -/

namespace DurableQueue
namespace Text

/-! ### White space at the ends -/

section
variable {before cs after : List Char}

theorem dropBlanks_append (blank : ∀ c ∈ before, isBlank c = true) : dropBlanks (before ++ cs) = dropBlanks cs :=
  List.dropWhile_append_of_pos blank

theorem dropBlanks_of_visible (visible : ∀ c ∈ cs, isBlank c = false) : dropBlanks cs = cs := by
  cases cs with
  | nil => rfl
  | cons c rest => exact List.dropWhile_cons_of_neg (by simp [visible c List.mem_cons_self])

theorem dropBlanks_of_blank (blank : ∀ c ∈ cs, isBlank c = true) : dropBlanks cs = [] := by
  rw [← List.append_nil cs, dropBlanks_append blank]
  rfl

/-- Trimming takes off white space, and only at the ends. -/
theorem exists_trimChars (cs : List Char) : ∃ before after, cs = before ++ trimChars cs ++ after ∧
    (∀ c ∈ before, isBlank c = true) ∧ ∀ c ∈ after, isBlank c = true := by
  refine ⟨cs.takeWhile isBlank, (dropBlanks cs).rtakeWhile isBlank, ?_, ?_, ?_⟩
  · have back : trimChars cs ++ (dropBlanks cs).rtakeWhile isBlank = dropBlanks cs := List.rdropWhile_append_rtakeWhile
    rw [List.append_assoc, back]
    exact List.takeWhile_append_dropWhile.symm
  · exact fun _ member => List.mem_takeWhile_imp member
  · exact fun _ member => List.mem_rtakeWhile_imp member

/-- What has no white space in it is left when that around it has been taken off. -/
theorem trimChars_append (visible : ∀ c ∈ cs, isBlank c = false) (front : ∀ c ∈ before, isBlank c = true)
    (back : ∀ c ∈ after, isBlank c = true) : trimChars (before ++ cs ++ after) = cs := by
  have inner : dropBlanks (before ++ cs ++ after) = if cs = [] then [] else cs ++ after := by
    rw [List.append_assoc, dropBlanks_append front]
    cases cs with
    | nil => exact dropBlanks_of_blank back
    | cons c rest => exact List.dropWhile_cons_of_neg (by simp [visible c List.mem_cons_self])
  rw [trimChars, inner]
  split
  · next none => exact none.symm
  · rw [List.reverse_append, dropBlanks_append (by simpa using back), dropBlanks_of_visible (by simpa using visible),
      List.reverse_reverse]

end

/-! ### Digits -/

section
variable {bound value n : Nat} {cs digits : List Char}

theorem le_foldl_digits (value : Nat) (cs : List Char) : value ≤ cs.foldl (fun n c => n * 10 + digitValue c) value := by
  induction cs generalizing value with
  | nil => exact Nat.le_refl value
  | cons c cs ih =>
    have := ih (value * 10 + digitValue c)
    rw [List.foldl_cons]
    omega

theorem readDigits_eq_ok_iff : readDigits bound value cs = .ok n ↔ (∀ c ∈ cs, c.isDigit = true) ∧
    cs.foldl (fun n c => n * 10 + digitValue c) value = n ∧ (cs = [] ∨ n < bound) := by
  induction cs generalizing value with
  | nil => simp [readDigits]
  | cons c cs ih =>
    rw [readDigits, List.forall_mem_cons, List.foldl_cons]
    by_cases digit : c.isDigit = true
    · rw [if_pos digit]
      -- A value that is too large stays so whatever digits follow.
      have grows := le_foldl_digits (value * 10 + digitValue c) cs
      dsimp only
      split
      · next fits =>
        rw [ih]
        constructor
        · rintro ⟨all, rfl, rfl | below⟩
          · exact ⟨⟨digit, all⟩, rfl, Or.inr fits⟩
          · exact ⟨⟨digit, all⟩, rfl, Or.inr below⟩
        · rintro ⟨⟨-, all⟩, rfl, none | below⟩
          · cases none
          · exact ⟨all, rfl, Or.inr below⟩
      · next large =>
        refine ⟨nofun, ?_⟩
        rintro ⟨-, rfl, none | below⟩
        · cases none
        · exact absurd (Nat.lt_of_le_of_lt grows below) large
    · rw [if_neg digit]
      exact ⟨nofun, fun h => absurd h.1.1 digit⟩

/-- Characters that write a number in base ten: one or more digits, with or without a plus sign in front. -/
inductive Writes : List Char → Nat → Prop where
  | plain {digits : List Char} (nonempty : digits ≠ []) (all : ∀ c ∈ digits, c.isDigit = true) :
    Writes digits (decimalValue digits)
  | signed {digits : List Char} (nonempty : digits ≠ []) (all : ∀ c ∈ digits, c.isDigit = true) :
    Writes ('+' :: digits) (decimalValue digits)

theorem isBlank_of_isDigit {c : Char} (digit : c.isDigit = true) : isBlank c = false := by
  simp only [Char.isDigit, Bool.and_eq_true, decide_eq_true_eq, UInt32.le_iff_toNat_le] at digit
  have low : 48 ≤ c.toNat := digit.1
  have high : c.toNat ≤ 57 := digit.2
  simp only [isBlank, Bool.or_eq_false_iff, Bool.and_eq_false_iff, decide_eq_false_iff_not, beq_eq_false_iff_ne]
  omega

theorem Writes.visible (writes : Writes cs n) : ∀ c ∈ cs, isBlank c = false := by
  cases writes with
  | plain _ all => exact fun c member => isBlank_of_isDigit (all c member)
  | signed _ all => exact List.forall_mem_cons.mpr ⟨by decide, fun c member => isBlank_of_isDigit (all c member)⟩

/-- A number is read exactly if it is written in base ten and lies below the bound. -/
theorem readUnsigned_eq_ok_iff {s : String} : readUnsigned bound s = .ok n ↔ Writes s.toList n ∧ n < bound := by
  unfold readUnsigned
  split
  · next none =>
    refine ⟨nofun, fun h => ?_⟩
    rw [none] at h
    cases h.1 with
    | plain nonempty => exact absurd rfl nonempty
  · next alone =>
    refine ⟨nofun, fun h => ?_⟩
    rw [alone] at h
    cases h.1 with
    | plain _ all => exact absurd (all '+' List.mem_cons_self) (by decide)
    | signed nonempty => exact absurd rfl nonempty
  · next digits nonempty signed =>
    rw [readDigits_eq_ok_iff, signed]
    constructor
    · rintro ⟨all, rfl, none | below⟩
      · exact absurd none nonempty
      · exact ⟨.signed nonempty all, below⟩
    · rintro ⟨writes, below⟩
      cases writes with
      | plain _ all => exact absurd (all '+' List.mem_cons_self) (by decide)
      | signed _ all => exact ⟨all, rfl, Or.inr below⟩
  · next nonempty _ unsigned =>
    rw [readDigits_eq_ok_iff]
    constructor
    · rintro ⟨all, rfl, none | below⟩
      · exact absurd none nonempty
      · exact ⟨.plain nonempty all, below⟩
    · rintro ⟨writes, below⟩
      generalize s.toList = cs at writes unsigned ⊢
      cases writes with
      | plain _ all => exact ⟨all, rfl, Or.inr below⟩
      | signed => exact absurd rfl (unsigned _)

/-- A text that is a number: what writes it, with white space around it or without. -/
def Numeral (s : String) (n : Nat) : Prop :=
  ∃ before number after, s.toList = before ++ number ++ after ∧ (∀ c ∈ before, isBlank c = true) ∧
    (∀ c ∈ after, isBlank c = true) ∧ Writes number n

theorem numeral_iff {s : String} : Numeral s n ↔ Writes (trim s).toList n := by
  rw [trim, String.toList_ofList]
  constructor
  · rintro ⟨before, number, after, split, front, back, writes⟩
    rwa [split, trimChars_append writes.visible front back]
  · intro writes
    obtain ⟨before, after, split, front, back⟩ := exists_trimChars s.toList
    exact ⟨before, _, after, split, front, back, writes⟩

theorem readUnsigned_trim_eq_ok_iff {s : String} : readUnsigned bound (trim s) = .ok n ↔ Numeral s n ∧ n < bound := by
  rw [readUnsigned_eq_ok_iff, numeral_iff]

theorem Numeral.unique {s : String} {m : Nat} (first : Numeral s m) (second : Numeral s n) : m = n := by
  have reads : readUnsigned (max m n + 1) (trim s) = .ok m := readUnsigned_trim_eq_ok_iff.mpr ⟨first, by omega⟩
  have again : readUnsigned (max m n + 1) (trim s) = .ok n := readUnsigned_trim_eq_ok_iff.mpr ⟨second, by omega⟩
  exact Except.ok.inj (reads.symm.trans again)

/-- What is not read is no number below the bound. -/
theorem exists_readUnsigned_error_iff {s : String} :
    (∃ fault, readUnsigned bound (trim s) = .error fault) ↔ ∀ n, Numeral s n → bound ≤ n := by
  constructor
  · rintro ⟨fault, refused⟩ n numeral
    by_contra below
    cases refused.symm.trans (readUnsigned_trim_eq_ok_iff.mpr ⟨numeral, Nat.not_le.mp below⟩)
  · intro none
    cases reads : readUnsigned bound (trim s) with
    | error fault => exact ⟨fault, rfl⟩
    | ok n =>
      obtain ⟨numeral, below⟩ := readUnsigned_trim_eq_ok_iff.mp reads
      exact absurd (none n numeral) (Nat.not_le.mpr below)

end

end Text
end DurableQueue
