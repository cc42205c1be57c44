import DurableQueue.Schedule.Field
import DurableQueue.Text.Blank
import DurableQueue.Text.Number

/-! Reading a cron expression: six fields for seconds, minutes, hours, days of the month, months and days of the week,
    with an optional seventh for years behind them. A field is a list of items with commas between them; white space
    is needed only where two fields would otherwise run together, yet the text as a whole has to have six words.

    A field is read item by item and gets its values before the next field is looked at, so the first field with a fault
    gives it. A fault holds its offset in the text. -/

namespace DurableQueue

/-- The values that each field of a schedule admits, ascending. -/
structure Schedule where
  seconds : List Nat
  minutes : List Nat
  hours : List Nat
  days : List Nat
  months : List Nat
  weekdays : List Nat
  years : List Nat
  deriving DecidableEq, Repr

namespace Schedule

/-- The number of words that an expression has. -/
def wordsNeeded : Nat := 6

/-- Why a text is not a cron expression. -/
inductive Fault where
  | wordCount (found : Nat)
  | unreadable (offset : Nat)
  | badField (offset : Nat) (fault : FieldFault)
  deriving DecidableEq, Repr

/-- A reader of one part: what it read, and the rest of the text. -/
abbrev Scan (α : Type) := List Char → Option (α × List Char)

/-- The white space between fields. -/
def isGap (c : Char) : Bool := c = ' ' || c = '\t' || c = '\r' || c = '\n'

/-- A text without the white space at its beginning. -/
def skipGap (cs : List Char) : List Char := cs.dropWhile isGap

/-- Numbers have 32 bits: they are below this one. -/
def numberBound : Nat := 4294967296

/-- A number with white space around it. -/
def scanNumber : Scan Nat := fun cs =>
  let cs := skipGap cs
  let digits := cs.takeWhile Char.isDigit
  let n := Text.decimalValue digits
  if digits = [] ∨ numberBound ≤ n then none else some (n, skipGap (cs.drop digits.length))

/-- A word of letters with white space around it. -/
def scanName : Scan String := fun cs =>
  let cs := skipGap cs
  let letters := cs.takeWhile Char.isAlpha
  if letters = [] then none else some (String.ofList letters, skipGap (cs.drop letters.length))

/-- Two parts with a character between them. -/
def scanPair {α β : Type} (first : Scan α) (mark : Char) (second : Scan β) : Scan (α × β) := fun cs => do
  let (a, rest) ← first cs
  match rest with
  | c :: rest =>
    if c = mark then
      let (b, rest) ← second rest
      some ((a, b), rest)
    else none
  | [] => none

/-- The sign for all values. -/
def scanAll (f : Field) : Scan Base
  | '*' :: rest => some (.all, rest)
  | '?' :: rest => if f.takesAny then some (.all, rest) else none
  | _ => none

/-- What an item chooses from before a step is taken. -/
def scanBase (f : Field) : Scan Base := fun cs =>
  scanAll f cs
    <|> (scanPair scanNumber '-' scanNumber cs).map (fun ((a, b), rest) => (.range a b, rest))
    <|> (scanNumber cs).map (fun (n, rest) => (.point n, rest))
    <|> (scanPair scanName '-' scanName cs).map (fun ((a, b), rest) => (.namedRange a b, rest))

/-- An item: with a step, without one, or a name. -/
def scanItem (f : Field) : Scan Item := fun cs =>
  (scanPair (scanBase f) '/' scanNumber cs).map (fun ((base, step), rest) => (.stepped base step, rest))
    <|> (scanBase f cs).map (fun (base, rest) => (.plain base, rest))
    <|> (scanName cs).map (fun (name, rest) => (.named name, rest))

/-- More items, each behind a comma. A comma that no item follows stays where it is. -/
def scanMore (f : Field) : Nat → List Char → List Item × List Char
  | fuel + 1, ',' :: cs =>
    match scanItem f cs with
    | some (item, rest) =>
      let (items, rest) := scanMore f fuel rest
      (item :: items, rest)
    | none => ([], ',' :: cs)
  | _, cs => ([], cs)

/-- The items of a field with white space around them. -/
def scanItems (f : Field) : Scan (List Item) := fun cs => do
  let (first, rest) ← scanItem f (skipGap cs)
  let (others, rest) := scanMore f rest.length rest
  some (first :: others, skipGap rest)

/-- The values of a field, and the rest of the text. An unreadable field is faulty where its first item ought to begin,
    a field without values where it starts itself. -/
def scanField (f : Field) (size : Nat) (cs : List Char) : Except Fault (List Nat × List Char) :=
  match scanItems f cs with
  | none => .error (.unreadable (size - (skipGap cs).length))
  | some (items, rest) =>
    match f.select items with
    | .ok values => .ok (values, rest)
    | .error fault => .error (.badField (size - cs.length) fault)

/-- The names of fixed schedules. They are no expressions, but a text that begins with one is faulty behind it. -/
def fixedNames : List (List Char) :=
  ["@yearly".toList, "@monthly".toList, "@weekly".toList, "@daily".toList, "@hourly".toList]

/-- The years at the end of an expression: all, if the text does not go on with a field of years. -/
def scanYears (size : Nat) (cs : List Char) : List Nat × List Char :=
  match scanField .years size cs with
  | .ok (years, rest) => (years, rest)
  | .error _ => (Field.years.all, cs)

/-- The fields of an expression, up to its end. -/
def readFields (cs : List Char) : Except Fault Schedule := do
  let size := cs.length
  let (seconds, rest) ← scanField .seconds size cs
  let (minutes, rest) ← scanField .minutes size rest
  let (hours, rest) ← scanField .hours size rest
  let (days, rest) ← scanField .daysOfMonth size rest
  let (months, rest) ← scanField .months size rest
  let (weekdays, rest) ← scanField .daysOfWeek size rest
  let (years, rest) := scanYears size rest
  if rest = [] then .ok { seconds, minutes, hours, days, months, weekdays, years }
  else .error (.unreadable (size - rest.length))

/-- Reads an expression of six words. -/
def read (s : String) : Except Fault Schedule :=
  let words := Text.wordCount s
  let cs := s.toList
  if words ≠ wordsNeeded then .error (.wordCount words)
  else match fixedNames.find? (·.isPrefixOf (skipGap cs)) with
    | some name => .error (.unreadable (cs.length - (skipGap ((skipGap cs).drop name.length)).length))
    | none => readFields cs

/-! ### Messages -/

/-- The lines of a text. -/
def lines : List Char → List (List Char)
  | [] => [[]]
  | c :: cs =>
    if c = '\n' then [] :: lines cs
    else match lines cs with
      | [] => [[c]]
      | l :: ls => (c :: l) :: ls

/-- The line and the column of an offset, both counted from 0. The end of the text lies behind its last character, even
    if that ends a line. -/
def position (cs : List Char) (offset : Nat) : Nat × Nat :=
  let known := min offset (cs.length - 1)
  let before := cs.take known
  let column := (before.reverse.takeWhile (· ≠ '\n')).length
  (before.count '\n', column + (offset - known))

/-- A text with a caret below one of its places; of several lines only that one is shown. -/
def pointedAt (s : String) (offset : Nat) : String :=
  let cs := s.toList
  if cs.contains '\n' then
    let (line, column) := position cs offset
    let number := toString (line + 1)
    let margin := Text.blanks number.length
    "parse error at line " ++ number ++ ", column " ++ toString (column + 1) ++ "\n" ++ margin ++ " |\n" ++
      number ++ " | " ++ String.ofList ((lines cs)[line]?.getD []) ++ "\n" ++
      margin ++ " | " ++ Text.blanks column ++ "^\n"
  else s ++ "\n" ++ Text.blanks offset ++ "^\n"

/-- What a reader of the message is told about an expression. -/
def Fault.message (expression : String) : Fault → String
  | .wordCount found => "expected " ++ toString wordsNeeded ++ " fields, found " ++ toString found
  | .unreadable offset => pointedAt expression offset
  | .badField offset fault => pointedAt expression offset ++ fault.message

end Schedule
end DurableQueue
