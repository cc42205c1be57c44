import DurableQueue.Proofs.Subject.Tokens
import DurableQueue.Subject.Pattern

/-! Which subjects fall under a pattern. The rules for single tokens make a relation of lists of tokens. The comparison
    goes along both lists by place and ends as soon as it can, and yet finds just this relation, for all texts. It follows
    which texts are patterns: those that some subject falls under. A subject is such a text itself, and the only subject
    that falls under it. -/

namespace DurableQueue
namespace Subject

variable {token : List Char} {tokens subject pattern : List (List Char)} {s text : String}

/-! ### Splitting -/

theorem pieces_eq_splitOn (cs : List Char) : pieces cs = cs.splitOn '.' := by
  induction cs with
  | nil => rfl
  | cons c cs ih =>
    obtain ⟨first, others, hp⟩ := List.exists_cons_of_ne_nil (pieces_ne_nil cs)
    rw [List.splitOn_cons_eq_if_modifyHead, ← ih]
    by_cases dot : c = '.'
    · rw [pieces, if_pos dot, if_pos (by simpa using dot)]
    · rw [pieces_cons_of_ne dot hp, if_neg (by simpa using dot), hp]
      rfl

theorem tokens_eq_splitOn (s : String) : Subject.tokens s = s.toList.splitOn '.' := pieces_eq_splitOn s.toList

/-- A text is known by its tokens. -/
theorem tokens_injective {s t : String} (h : Subject.tokens s = Subject.tokens t) : s = t := by
  rw [tokens_eq_splitOn, tokens_eq_splitOn] at h
  have joined := congrArg (['.'].intercalate ·) h
  simp only [List.intercalate_splitOn] at joined
  exact String.toList_injective joined

/-- Every list of tokens without dots is that of a text. -/
theorem exists_text (ne : tokens ≠ []) (dotless : ∀ token ∈ tokens, '.' ∉ token) : ∃ s, Subject.tokens s = tokens := by
  refine ⟨String.ofList (['.'].intercalate tokens), ?_⟩
  rw [tokens_eq_splitOn, String.toList_ofList, List.splitOn_intercalate '.' dotless ne]

/-! ### The rules -/

/-- The tokens of a subject fall under the tokens of a pattern. -/
inductive FallsUnder : List (List Char) → List (List Char) → Prop where
  | nil : FallsUnder [] []
  | literal {token : List Char} {subject pattern : List (List Char)} (notOne : token ≠ Subject.anyOne)
      (notTail : token ≠ Subject.anyTail) (others : FallsUnder subject pattern) :
      FallsUnder (token :: subject) (token :: pattern)
  | anyOne (token : List Char) {subject pattern : List (List Char)} (others : FallsUnder subject pattern) :
      FallsUnder (token :: subject) (Subject.anyOne :: pattern)
  | anyTail {subject : List (List Char)} (more : subject ≠ []) : FallsUnder subject [Subject.anyTail]

/-- The comparison goes by the rules. -/
theorem matchTokens_iff_fallsUnder : matchTokens subject pattern = true ↔ FallsUnder subject pattern := by
  constructor
  · intro h
    induction pattern generalizing subject with
    | nil =>
      rw [matchTokens_nil, List.isEmpty_iff] at h
      subst h
      exact .nil
    | cons token rest ih =>
      by_cases tail : token = anyTail
      · subst tail
        rw [matchTokens_anyTail, Bool.and_eq_true, List.isEmpty_iff] at h
        obtain ⟨rfl, more⟩ := h
        exact .anyTail (by simpa using more)
      · cases subject with
        | nil =>
          rw [matchTokens_nil_cons] at h
          cases h
        | cons first others =>
          obtain ⟨like, behind⟩ := (matchTokens_cons_cons tail).mp h
          by_cases wild : token = anyOne
          · subst wild
            exact .anyOne first (ih behind)
          · obtain rfl := like.resolve_left wild
            exact .literal wild tail (ih behind)
  · intro h
    induction h with
    | nil => rfl
    | literal _ notTail _ ih => exact (matchTokens_cons_cons notTail).mpr ⟨Or.inr rfl, ih⟩
    | anyOne token _ ih => exact (matchTokens_cons_cons (by decide)).mpr ⟨Or.inl rfl, ih⟩
    | anyTail more =>
      rw [matchTokens_anyTail]
      simpa using more

theorem matchText_iff : matchText s text = true ↔ FallsUnder (Subject.tokens s) (Subject.tokens text) :=
  matchTokens_iff_fallsUnder

theorem tailMisplaced_cons (token : List Char) (rest : List (List Char)) :
    tailMisplaced (token :: rest) = true ↔ token = anyTail ∧ rest ≠ [] ∨ tailMisplaced rest = true := by
  cases rest <;> simp [tailMisplaced]

theorem tailMisplaced_of_split (before after : List (List Char)) (next : List Char) :
    tailMisplaced (before ++ anyTail :: next :: after) = true := by
  induction before with
  | nil => exact (tailMisplaced_cons _ _).mpr (Or.inl ⟨rfl, List.cons_ne_nil _ _⟩)
  | cons token before ih => exact (tailMisplaced_cons _ _).mpr (Or.inr ih)

namespace FallsUnder

/-- Nothing falls under a pattern that goes on behind a `>`. -/
theorem tail_last (h : FallsUnder subject pattern) : tailMisplaced pattern = false := by
  rw [← Bool.not_eq_true]
  induction h with
  | nil => nofun
  | literal _ notTail _ ih =>
    rw [tailMisplaced_cons]
    exact fun misplaced => misplaced.elim (fun here => notTail here.1) ih
  | anyOne _ _ ih =>
    rw [tailMisplaced_cons]
    exact fun misplaced => misplaced.elim (fun here => absurd here.1 (by decide)) ih
  | anyTail _ => nofun

/-- Under tokens without a meaning of their own they fall themselves, and nothing else does. -/
theorem literal_iff (plain : ∀ token ∈ pattern, isWildcard token = false) :
    FallsUnder subject pattern ↔ subject = pattern := by
  constructor
  · intro h
    induction h with
    | nil => rfl
    | literal _ _ _ ih => rw [ih fun token member => plain token (List.mem_cons_of_mem _ member)]
    | anyOne => cases plain Subject.anyOne List.mem_cons_self
    | anyTail => cases plain Subject.anyTail List.mem_cons_self
  · rintro rfl
    induction subject with
    | nil => exact .nil
    | cons token rest ih =>
      rw [List.forall_mem_cons, isWildcard, Bool.or_eq_false_iff, decide_eq_false_iff_not, decide_eq_false_iff_not] at plain
      exact .literal plain.1.1 plain.1.2 (ih plain.2)

end FallsUnder

/-- A text falls under another by the rules for the tokens that dots cut them into, and nothing falls under a text that has
    another token behind a `>`. -/
theorem matchText_iff_fallsUnder (subject pattern : String) :
    (matchText subject pattern = true ↔ FallsUnder (subject.toList.splitOn '.') (pattern.toList.splitOn '.')) ∧
      ∀ before next after, pattern.toList.splitOn '.' = before ++ anyTail :: next :: after →
        matchText subject pattern = false := by
  rw [← tokens_eq_splitOn, ← tokens_eq_splitOn]
  refine ⟨matchText_iff, fun before next after h => Bool.eq_false_iff.mpr fun falls => ?_⟩
  have last := (matchText_iff.mp falls).tail_last
  rw [h, tailMisplaced_of_split] at last
  cases last

theorem matchText_iff_fallsUnder_misplaced :
    "a.>.b".toList.splitOn '.' = [['a']] ++ anyTail :: ['b'] :: [] ∧ ∀ subject, matchText subject "a.>.b" = false := by
  have split : "a.>.b".toList.splitOn '.' = [['a']] ++ anyTail :: ['b'] :: [] := by decide
  exact ⟨split, fun subject => (matchText_iff_fallsUnder subject "a.>.b").2 _ _ _ split⟩

/-! ### Subjects of a pattern -/

theorem validate_eq_ok_iff : validate s = .ok () ↔ s ≠ "" ∧ ∀ token ∈ Subject.tokens s, isWildcard token = false := by
  unfold validate
  by_cases blank : s = ""
  · simp [blank]
  · rw [if_neg blank, and_iff_right blank]
    split
    · next wild =>
      obtain ⟨token, member, meaning⟩ := List.any_eq_true.mp wild
      simp only [reduceCtorEq, false_iff]
      exact fun plain => Bool.false_ne_true ((plain token member).symm.trans meaning)
    · next none =>
      simp only [true_iff]
      exact fun token member => Bool.eq_false_iff.mpr fun meaning => none (List.any_eq_true.mpr ⟨token, member, meaning⟩)

/-- A token under a given one of a pattern, without a meaning of its own. -/
def concrete (token : List Char) : List Char := if isWildcard token then ['a'] else token

theorem isWildcard_concrete (token : List Char) : isWildcard (concrete token) = false := by
  unfold concrete
  split
  · rfl
  · next plain => exact Bool.eq_false_iff.mpr plain

theorem not_mem_concrete (dotless : '.' ∉ token) : '.' ∉ concrete token := by
  unfold concrete
  split
  · decide
  · exact dotless

theorem eq_nil_of_concrete (h : concrete token = []) : token = [] := by
  unfold concrete at h
  split at h
  · cases h
  · exact h

theorem fallsUnder_concrete (tailLast : tailMisplaced tokens = false) : FallsUnder (tokens.map concrete) tokens := by
  induction tokens with
  | nil => exact .nil
  | cons token rest ih =>
    rw [← Bool.not_eq_true, tailMisplaced_cons, not_or, not_and, Decidable.not_not, Bool.not_eq_true] at tailLast
    obtain ⟨last, behind⟩ := tailLast
    rw [List.map_cons]
    by_cases tail : token = anyTail
    · rw [last tail, tail]
      exact .anyTail (List.cons_ne_nil _ _)
    · by_cases one : token = anyOne
      · subst one
        exact .anyOne _ (ih behind)
      · have plain : concrete token = token := if_neg (by simp [isWildcard, one, tail])
        rw [plain]
        exact .literal one tail (ih behind)

/-- A subject falls under each text that is not empty and has no token behind a `>`. -/
theorem exists_subject (ne : text ≠ "") (tailLast : tailMisplaced (Subject.tokens text) = false) :
    ∃ s, validate s = .ok () ∧ matchText s text = true := by
  have parts : (Subject.tokens text).map concrete ≠ [] := mt List.map_eq_nil_iff.mp (pieces_ne_nil text.toList)
  have dotless : ∀ token ∈ (Subject.tokens text).map concrete, '.' ∉ token :=
    List.forall_mem_map.mpr fun token member => not_mem_concrete (not_mem_of_mem_pieces member)
  obtain ⟨s, hs⟩ := exists_text parts dotless
  refine ⟨s, validate_eq_ok_iff.mpr ⟨?_, ?_⟩, ?_⟩
  · -- Were it empty, the text would have one token, an empty one, and would be empty as well.
    rintro rfl
    obtain ⟨token, single, blank⟩ := List.map_eq_singleton_iff.mp hs.symm
    rw [eq_nil_of_concrete blank] at single
    exact ne (tokens_injective single)
  · rw [hs]
    exact List.forall_mem_map.mpr fun token _ => isWildcard_concrete token
  · rw [matchText_iff, hs]
    exact fallsUnder_concrete tailLast

/-- What falls under a subject is that subject. -/
theorem matchText_iff_of_validate (valid : validate text = .ok ()) : matchText s text = true ↔ s = text := by
  rw [matchText_iff, FallsUnder.literal_iff (validate_eq_ok_iff.mp valid).2]
  exact ⟨tokens_injective, congrArg Subject.tokens⟩

end Subject

namespace Pattern
open Subject

theorem read_eq_ok_iff {p : Pattern} {text : String} : Pattern.read text = .ok p ↔ p.text = text := by
  obtain ⟨content, nonempty, tail_last⟩ := p
  unfold Pattern.read
  split
  · next blank =>
    simp only [reduceCtorEq, false_iff]
    exact fun same => nonempty (same.trans blank)
  · split
    · next misplaced =>
      simp only [reduceCtorEq, false_iff]
      rintro rfl
      rw [tail_last] at misplaced
      cases misplaced
    · simp [eq_comm]

/-- A text is read as a pattern if and only if there is a subject that falls under it. A subject is a pattern too, and the
    only text that falls under it. -/
theorem read_iff_usable (text : String) :
    ((∃ p, Pattern.read text = .ok p) ↔ ∃ s, Subject.validate s = .ok () ∧ matchText s text = true) ∧
      (Subject.validate text = .ok () → ∃ p, Pattern.read text = .ok p ∧ ∀ s, p.accepts s = true ↔ s = text) := by
  refine ⟨⟨?_, ?_⟩, fun valid => ?_⟩
  · rintro ⟨p, h⟩
    obtain rfl := read_eq_ok_iff.mp h
    exact exists_subject p.nonempty p.tail_last
  · rintro ⟨s, valid, falls⟩
    have ne : text ≠ "" := by
      rintro rfl
      -- Under the empty text falls the empty text, which is not valid.
      have plain : ∀ token ∈ tokens "", isWildcard token = false := by decide
      have same := (FallsUnder.literal_iff plain).mp (matchText_iff.mp falls)
      exact (validate_eq_ok_iff.mp valid).1 (tokens_injective same)
    exact ⟨⟨text, ne, (matchText_iff.mp falls).tail_last⟩, read_eq_ok_iff.mpr rfl⟩
  · have itself := (matchText_iff_of_validate valid).mpr rfl
    have ne := (validate_eq_ok_iff.mp valid).1
    exact ⟨⟨text, ne, (matchText_iff.mp itself).tail_last⟩, read_eq_ok_iff.mpr rfl,
      fun s => matchText_iff_of_validate valid⟩

theorem read_iff_usable_wildcards :
    (∃ p, Pattern.read "a.*.>" = .ok p) ∧ Subject.validate "a..b" = .ok () ∧
      ∃ p, Pattern.read "a..b" = .ok p ∧ ∀ s, p.accepts s = true ↔ s = "a..b" := by
  have valid : Subject.validate "a..b" = .ok () := rfl
  have covered : ∃ s, Subject.validate s = .ok () ∧ matchText s "a.*.>" = true := ⟨"a..b.c", rfl, by decide⟩
  exact ⟨(read_iff_usable "a.*.>").1.mpr covered, valid, (read_iff_usable "a..b").2 valid⟩

end Pattern
end DurableQueue
