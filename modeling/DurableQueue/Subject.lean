import DurableQueue.Refusal

/-! Subjects and the patterns that select them. A subject is a text that dots cut into tokens. In a pattern the token
    `*` stands for any one token, and `>`, which has its meaning only as the last token, for one or more. -/

namespace DurableQueue
namespace Subject

/-- The pieces of a text between dots: one more than there are dots. -/
def pieces : List Char → List (List Char)
  | [] => [[]]
  | c :: cs =>
    if c = '.' then [] :: pieces cs
    else match pieces cs with
      | [] => [[c]]
      | p :: ps => (c :: p) :: ps

/-- The tokens of a text. -/
def tokens (s : String) : List (List Char) := pieces s.toList

/-- The token that stands for any one token. -/
def anyOne : List Char := ['*']

/-- The token that stands for all that is left, at least one token. -/
def anyTail : List Char := ['>']

/-- Compares the tokens of a pattern that are left, the first of which stands at the given place, with the tokens of a
    subject at the same places. The comparison ends where the subject has no token at a place, where a token differs, and
    at a `>`, which has to be the last token of the pattern. -/
def matchFrom (subject pattern : List (List Char)) : Nat → List (List Char) → Bool
  | _, [] => subject.length = pattern.length
  | place, token :: rest =>
    if token = anyTail then place + 1 = pattern.length && place < subject.length
    else match subject[place]? with
      | none => false
      | some other => if token ≠ anyOne ∧ token ≠ other then false else matchFrom subject pattern (place + 1) rest

/-- Whether the tokens of a subject fall under the tokens of a pattern. A `>` that is not the last token matches
    nothing. -/
def matchTokens (subject pattern : List (List Char)) : Bool := matchFrom subject pattern 0 pattern

/-- Whether a subject falls under a pattern, be the two well-formed or not. -/
def matchText (subject pattern : String) : Bool := matchTokens (tokens subject) (tokens pattern)

/-- Whether a token has a meaning in patterns. -/
def isWildcard (token : List Char) : Bool := token = anyOne || token = anyTail

/-- Refuses what no task may have as its subject: nothing at all, or a token with a meaning in patterns. -/
def validate (subject : String) : Except Refusal Unit :=
  if subject = "" then .error .emptySubject
  else if (tokens subject).any isWildcard then .error (.wildcardSubject subject)
  else .ok ()

/-- Whether a `>` stands in front of another token. -/
def tailMisplaced : List (List Char) → Bool
  | [] => false
  | [_] => false
  | token :: rest => token = anyTail || tailMisplaced rest

end Subject
end DurableQueue
