import DurableQueue.Subject

/-! The tokens of a text. A text is its first token alone, or its first token, a dot, and a text that gives the other
    tokens; every proof about tokens goes by these two cases. -/

namespace DurableQueue
namespace Subject

variable {cs token rest : List Char}

theorem pieces_ne_nil (cs : List Char) : pieces cs ≠ [] := by
  induction cs with
  | nil => simp [pieces]
  | cons c cs ih =>
    rw [pieces]
    split
    · simp
    · split <;> simp

theorem pieces_cons_of_ne {c : Char} {tokens : List (List Char)} (h : c ≠ '.') (hp : pieces cs = token :: tokens) :
    pieces (c :: cs) = (c :: token) :: tokens := by
  rw [pieces, if_neg h, hp]

theorem pieces_of_not_mem (h : '.' ∉ cs) : pieces cs = [cs] := by
  induction cs with
  | nil => rfl
  | cons c cs ih =>
    rw [List.mem_cons, not_or] at h
    exact pieces_cons_of_ne (Ne.symm h.1) (ih h.2)

theorem pieces_append (h : '.' ∉ token) : pieces (token ++ '.' :: rest) = token :: pieces rest := by
  induction token with
  | nil => rfl
  | cons c token ih =>
    rw [List.mem_cons, not_or] at h
    exact pieces_cons_of_ne (Ne.symm h.1) (ih h.2)

theorem pieces_cases (cs : List Char) : '.' ∉ cs ∧ pieces cs = [cs] ∨
    ∃ token rest, '.' ∉ token ∧ cs = token ++ '.' :: rest ∧ pieces cs = token :: pieces rest := by
  by_cases dot : '.' ∈ cs
  · obtain ⟨token, rest, rfl, first⟩ := List.eq_append_cons_of_mem dot
    exact Or.inr ⟨token, rest, first, rfl, pieces_append first⟩
  · exact Or.inl ⟨dot, pieces_of_not_mem dot⟩

theorem not_mem_of_mem_pieces (h : token ∈ pieces cs) : '.' ∉ token := by
  induction cs generalizing token with
  | nil => simp_all [pieces]
  | cons c cs ih =>
    by_cases dot : c = '.'
    · rw [pieces, if_pos dot, List.mem_cons] at h
      rcases h with rfl | h
      · simp
      · exact ih h
    · obtain ⟨first, others, hp⟩ := List.exists_cons_of_ne_nil (pieces_ne_nil cs)
      rw [pieces_cons_of_ne dot hp, List.mem_cons] at h
      rw [hp, List.forall_mem_cons] at ih
      rcases h with rfl | h
      · simpa [Ne.symm dot] using ih.1
      · exact ih.2 _ h

/-- What holds of a dot holds of all characters of a text if it holds of those of its tokens. -/
theorem forall_mem_pieces_iff {p : Char → Prop} (dot : p '.') :
    (∀ token ∈ pieces cs, ∀ c ∈ token, p c) ↔ ∀ c ∈ cs, p c := by
  induction cs with
  | nil => simp [pieces]
  | cons c cs ih =>
    by_cases h : c = '.'
    · rw [pieces, if_pos h, List.forall_mem_cons, List.forall_mem_cons, ih]
      simp [h, dot]
    · obtain ⟨first, others, hp⟩ := List.exists_cons_of_ne_nil (pieces_ne_nil cs)
      rw [hp, List.forall_mem_cons] at ih
      rw [pieces_cons_of_ne h hp, List.forall_mem_cons, List.forall_mem_cons, List.forall_mem_cons, and_assoc, ih]

/-! ### Matching -/

section
variable {token first : List Char} {subject others rest : List (List Char)}

/-- A token in front of both lists moves every place by one. -/
theorem matchFrom_cons_cons (first token : List Char) (subject pattern rest : List (List Char)) (place : Nat) :
    matchFrom (first :: subject) (token :: pattern) (place + 1) rest = matchFrom subject pattern place rest := by
  induction rest generalizing place with
  | nil => simp [matchFrom]
  | cons _ _ ih => simp [matchFrom, ih]

theorem matchTokens_anyTail : matchTokens subject (anyTail :: rest) = (rest.isEmpty && !subject.isEmpty) := by
  have last : decide (0 + 1 = (anyTail :: rest).length) = rest.isEmpty := by cases rest <;> simp
  have some : decide (0 < subject.length) = !subject.isEmpty := by cases subject <;> simp
  rw [matchTokens, matchFrom, if_pos rfl, last, some]

theorem matchTokens_nil : matchTokens subject [] = subject.isEmpty := by
  cases subject <;> simp [matchTokens, matchFrom]

theorem matchTokens_nil_cons : matchTokens [] (token :: rest) = false := by
  by_cases tail : token = anyTail <;> simp [matchTokens, matchFrom, tail]

theorem matchTokens_cons_cons (notTail : token ≠ anyTail) : matchTokens (first :: others) (token :: rest) = true ↔
    (token = anyOne ∨ token = first) ∧ matchTokens others rest = true := by
  rw [matchTokens, matchFrom, if_neg notTail, List.getElem?_cons_zero]
  dsimp only
  rw [matchFrom_cons_cons, matchTokens]
  by_cases like : token = anyOne ∨ token = first
  · rw [if_neg fun differs => like.elim differs.1 differs.2, and_iff_right like]
  · simp [not_or.mp like]

end

end Subject
end DurableQueue
