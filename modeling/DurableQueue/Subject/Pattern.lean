import DurableQueue.Subject

/-! Patterns that have been read: not empty, and with `>` as the last token only. A pattern can also be turned into a
    regular expression that selects the same subjects. -/

namespace DurableQueue

/-- A pattern for subjects. -/
structure Pattern where
  text : String
  /-- There is at least one character. -/
  nonempty : text ≠ ""
  /-- No `>` stands in front of another token. -/
  tail_last : Subject.tailMisplaced (Subject.tokens text) = false
  deriving DecidableEq

namespace Pattern

instance : Repr Pattern := ⟨fun p _ => repr p.text⟩

/-- Reads a pattern. -/
def read (text : String) : Except Refusal Pattern :=
  if nonempty : text = "" then .error .emptyPattern
  else if misplaced : Subject.tailMisplaced (Subject.tokens text) = true then .error (.misplacedTail text)
  else .ok ⟨text, nonempty, by simpa using misplaced⟩

/-- Whether a subject falls under the pattern. -/
def accepts (p : Pattern) (subject : String) : Bool := Subject.matchText subject p.text

/-- The characters that mean something in regular expressions. -/
def isSpecial (c : Char) : Bool := "\\.+*?()|[]\x7b\x7d^$".toList.contains c

/-- A character that stands for itself in a regular expression. -/
def escapeChar (c : Char) : List Char := if isSpecial c then ['\\', c] else [c]

/-- The part of a regular expression for one token. -/
def tokenRegex (token : List Char) : List Char :=
  if token = Subject.anyOne then "[^.]*".toList
  else if token = Subject.anyTail then ".*".toList
  else token.flatMap escapeChar

/-- The parts of a regular expression with literal dots between them. -/
def joinRegex : List (List Char) → List Char
  | [] => []
  | [part] => part
  | part :: rest => part ++ '\\' :: '.' :: joinRegex rest

/-- A regular expression for the subjects that fall under the pattern. -/
def regex (p : Pattern) : String :=
  String.ofList ('^' :: joinRegex ((Subject.tokens p.text).map tokenRegex) ++ ['$'])

end Pattern
end DurableQueue
