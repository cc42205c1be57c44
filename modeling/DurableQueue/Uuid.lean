/-! Identifiers of 128 bits. The written form is lower-case hexadecimal digits in five groups with hyphens between them;
    also read are the digits alone, the groups in braces and the groups after `urn:uuid:`, in either case. A text that is
    none of these has one fault, found from left to right. -/

namespace DurableQueue

/-- An identifier of 128 bits. -/
structure Uuid where
  bits : BitVec 128
  deriving DecidableEq

namespace Uuid

instance : Repr Uuid := ⟨fun u _ => repr u.bits.toNat⟩
instance : Inhabited Uuid := ⟨⟨0⟩⟩

/-! ### Writing -/

/-- A lower-case hexadecimal digit. -/
def hexDigit (n : Nat) : Char := Char.ofNat (if n < 10 then 48 + n else 87 + n)

/-- The last `count` hexadecimal digits of a number. -/
def hexDigits : Nat → Nat → List Char
  | 0, _ => []
  | count + 1, n => hexDigits count (n / 16) ++ [hexDigit (n % 16)]

/-- The lengths of the groups. -/
def groups : List Nat := [8, 4, 4, 4, 12]

/-- Digits cut into groups with hyphens between them. -/
def hyphenate : List Nat → List Char → List Char
  | [], cs => cs
  | [_], cs => cs
  | n :: rest, cs => cs.take n ++ '-' :: hyphenate rest (cs.drop n)

/-- The written form. -/
def text (u : Uuid) : String := String.ofList (hyphenate groups (hexDigits 32 u.bits.toNat))

/-! ### Reading -/

/-- Why a text is not an identifier. Lengths and positions count bytes. -/
inductive ReadFault where
  | length (found : Nat)
  | character (found : Char) (position : Nat)
  | groupCount (found : Nat)
  | groupLength (group expected found : Nat)
  deriving DecidableEq, Repr

/-- What a reader of the message is told. -/
def ReadFault.message : ReadFault → String
  | .length found => "invalid length: found " ++ toString found
  | .character found position => "invalid character: found `" ++ found.toString ++ "` at " ++ toString position
  | .groupCount found => "invalid group count: expected 5, found " ++ toString found
  | .groupLength group expected found =>
    "invalid group length in group " ++ toString group ++ ": expected " ++ toString expected ++ ", found " ++
      toString found

/-- The value of a hexadecimal digit. -/
def hexValue? (c : Char) : Option Nat :=
  if c.isDigit then some (c.toNat - 48)
  else if 'a' ≤ c ∧ c ≤ 'f' then some (c.toNat - 87)
  else if 'A' ≤ c ∧ c ≤ 'F' then some (c.toNat - 55)
  else none

/-- The number that hexadecimal digits write, if all are such digits. -/
def hexNumber? (cs : List Char) : Option Nat :=
  cs.foldl (fun n? c => do some ((← n?) * 16 + (← hexValue? c))) (some 0)

/-- The bytes that characters take. -/
def byteLength : List Char → Nat
  | [] => 0
  | c :: cs => c.utf8Size + byteLength cs

/-- The lengths of the pieces between hyphens. -/
def groupLengths : List Char → List Nat
  | [] => [0]
  | c :: cs =>
    match groupLengths cs with
    | [] => [1]
    | n :: rest => if c = '-' then 0 :: n :: rest else (n + 1) :: rest

/-- The digits of a text whose hyphens stand in the right places. -/
def grouped? (cs : List Char) : Option Uuid := do
  if groupLengths cs = groups then some ⟨.ofNat 128 (← hexNumber? (cs.filter (· ≠ '-')))⟩ else none

/-- The first character that is neither a digit nor a hyphen, with its position. -/
def firstStranger? (position : Nat) : List Char → Option (Char × Nat)
  | [] => none
  | c :: cs =>
    if c = '-' ∨ (hexValue? c).isSome then firstStranger? (position + c.utf8Size) cs else some (c, position)

/-- The first group with a wrong length. The last one is measured from where it ought to begin to the end of the
    whole text, `size` bytes long. -/
def wrongGroup (size : Nat) : Nat → List Nat → List Nat → ReadFault
  | group, [expected], [_] => .groupLength group expected (size - 24)
  | group, expected :: more, found :: rest =>
    if found = expected then wrongGroup size (group + 1) more rest else .groupLength group expected found
  | group, _, _ => .groupLength group 12 (size - 24)

/-- The fault of a text that is not an identifier. `start` is the position of its first character, `size` the length of
    the whole text, and `bare` says that it might have been digits alone. -/
def faultOf (start size : Nat) (bare : Bool) (cs : List Char) : ReadFault :=
  match firstStranger? start cs with
  | some (c, position) => .character c position
  | none =>
    let lengths := groupLengths cs
    if lengths.length = 1 ∧ bare then .length size
    else if lengths.length ≠ 5 then .groupCount lengths.length
    else wrongGroup size 0 groups lengths

/-- The text inside braces. -/
def unbraced? : List Char → Option (List Char)
  | '\x7b' :: cs => if cs.getLast? = some '\x7d' then some cs.dropLast else none
  | _ => none

/-- The text behind the prefix of a URN. -/
def unprefixed? (cs : List Char) : Option (List Char) :=
  if (cs.take 9).map Char.toLower = "urn:uuid:".toList then some (cs.drop 9) else none

/-- Reads hyphenated groups alone. -/
def readGrouped (cs : List Char) : Except ReadFault Uuid :=
  match grouped? cs with
  | some u => .ok u
  | none => .error (faultOf 0 (byteLength cs) false cs)

/-- Reads an identifier from characters. -/
def readChars (cs : List Char) : Except ReadFault Uuid :=
  let size := byteLength cs
  if size = 0 ∨ 45 < size then .error (.length size)
  else if size = 36 then readGrouped cs
  else match unbraced? cs, unprefixed? cs with
    | some inner, _ => if size = 38 then readGrouped inner else .error (faultOf 1 size false inner)
    | none, some inner => if size = 45 then readGrouped inner else .error (faultOf 9 size false inner)
    | none, none =>
      match hexNumber? cs with
      | some n => if size = 32 then .ok ⟨.ofNat 128 n⟩ else .error (faultOf 0 size true cs)
      | none => .error (faultOf 0 size true cs)

/-- Reads an identifier. -/
def read (s : String) : Except ReadFault Uuid := readChars s.toList

end Uuid
end DurableQueue
