import DurableQueue.Text.Blank

/-! Decimal numbers as texts: a natural number padded with zeros, the fraction of a decimal, and the reading of an
    unsigned number below a bound, which gives the reason when there is none. -/

namespace DurableQueue
namespace Text

/-- The digit characters of `n`, at least `width` of them: zeros in front fill up. -/
def padded (width n : Nat) : String :=
  let digits := toString n
  String.ofList (List.replicate (width - digits.length) '0') ++ digits

/-- `n` blanks. -/
def blanks (n : Nat) : String := String.ofList (List.replicate n ' ')

/-- A text without the zeros at its end. -/
def dropTrailingZeros (s : String) : String := String.ofList (s.toList.reverse.dropWhile (· == '0')).reverse

/-- The value of a digit character. -/
def digitValue (c : Char) : Nat := c.toNat - '0'.toNat

/-- The number that a list of digit characters writes in base ten. -/
def decimalValue (cs : List Char) : Nat := cs.foldl (fun n c => n * 10 + digitValue c) 0

/-- Why a text is not an unsigned number of the wanted size. -/
inductive NumberFault where
  | empty
  | invalidDigit
  | tooLarge
  deriving DecidableEq, Repr

/-- What a reader of the message is told. -/
def NumberFault.message : NumberFault → String
  | .empty => "cannot parse integer from empty string"
  | .invalidDigit => "invalid digit found in string"
  | .tooLarge => "number too large to fit in target type"

/-- Reads one or more digits as a number below `bound`. A digit is judged where it stands, so a number that is already
    too large hides a wrong character behind it. -/
def readDigits (bound : Nat) : Nat → List Char → Except NumberFault Nat
  | value, [] => .ok value
  | value, c :: cs =>
    if c.isDigit then
      let next := value * 10 + digitValue c
      if next < bound then readDigits bound next cs else .error .tooLarge
    else .error .invalidDigit

/-- Reads an optional `+` and then digits, as a number below `bound`. -/
def readUnsigned (bound : Nat) (s : String) : Except NumberFault Nat :=
  match s.toList with
  | [] => .error .empty
  | ['+'] => .error .invalidDigit
  | '+' :: cs => readDigits bound 0 cs
  | cs => readDigits bound 0 cs

end Text
end DurableQueue
