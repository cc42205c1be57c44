import DurableQueue.Json.Value
import DurableQueue.Text.Number

/-! Reading a JSON text. A text is one value between white space. `scan` goes by the grammar alone and leaves unreadable
    parts in place; `parse` gives a value only if there are none and arrays and objects nest at most 127 levels deep. -/

namespace DurableQueue
namespace Json

/-- The white space of JSON. -/
def isSpace (c : Char) : Bool := c = ' ' || c = '\n' || c = '\t' || c = '\r'

/-- A text without the white space at its beginning. -/
def skipSpace (cs : List Char) : List Char := cs.dropWhile isSpace

/-- The levels that arrays and objects may nest. -/
def deepest : Nat := 127

/-- A reader of one part: what it read, and the rest of the text. -/
abbrev Scan (α : Type) := List Char → Option (α × List Char)

/-! ### Strings -/

/-- The value of a hexadecimal digit. -/
def hexValue? (c : Char) : Option Nat :=
  if c.isDigit then some (c.toNat - 48)
  else if 'a' ≤ c ∧ c ≤ 'f' then some (c.toNat - 87)
  else if 'A' ≤ c ∧ c ≤ 'F' then some (c.toNat - 55)
  else none

/-- Four hexadecimal digits. -/
def scanHex : Scan Nat
  | a :: b :: c :: d :: rest => do
    some (((← hexValue? a) * 16 + (← hexValue? b)) * 256 + (← hexValue? c) * 16 + (← hexValue? d), rest)
  | _ => none

/-- The character that one escaped letter stands for. -/
def shortEscape? (c : Char) : Option Char :=
  if c = '"' then some '"'
  else if c = '\\' then some '\\'
  else if c = '/' then some '/'
  else if c = 'b' then some '\x08'
  else if c = 'f' then some '\x0c'
  else if c = 'n' then some '\n'
  else if c = 'r' then some '\r'
  else if c = 't' then some '\t'
  else none

/-- What follows `\u`: four hexadecimal digits, or two times four for a character beyond the first 65536. Half of such a
    pair is no character. -/
def scanUnicode : Scan (Option Char) := fun cs => do
  let (unit, rest) ← scanHex cs
  if unit < 0xD800 ∨ 0xE000 ≤ unit then some (some (Char.ofNat unit), rest)
  else if 0xDC00 ≤ unit then some (none, rest)
  else match rest with
    | '\\' :: 'u' :: more =>
      let (low, more) ← scanHex more
      if 0xDC00 ≤ low ∧ low < 0xE000 then
        some (some (Char.ofNat (0x10000 + (unit - 0xD800) * 1024 + (low - 0xDC00))), more)
      else some (none, rest)
    | _ => some (none, rest)

/-- The characters of a string up to its closing quote. The bound is the length of the text. -/
def scanChars : Nat → Scan (List (Option Char))
  | 0, _ => none
  | _ + 1, [] => none
  | fuel + 1, c :: cs =>
    if c = '"' then some ([], cs)
    else if c = '\\' then
      match cs with
      | [] => none
      | e :: rest => do
        let (d, rest) ← if e = 'u' then scanUnicode rest else (shortEscape? e).map fun d => (some d, rest)
        let (ds, rest) ← scanChars fuel rest
        some (d :: ds, rest)
    else if c.toNat < 0x20 then none
    else do
      let (ds, rest) ← scanChars fuel cs
      some (some c :: ds, rest)

/-- The rest of a string after its opening quote. There is no string if it has no character somewhere. -/
def scanString : Scan (Option String) := fun cs => do
  let (ds, rest) ← scanChars (cs.length + 1) cs
  some ((ds.mapM id).map String.ofList, rest)

/-! ### Numbers -/

/-- Digits that are kept make a number of 64 bits, which is below this one. -/
def digitsBound : Nat := 18446744073709551616

/-- Digits that have been read so far: their value while it fits into 64 bits, and how many more stood before the point and
    after it. -/
structure Digits where
  value : Nat
  power : Int
  full : Bool

/-- Adds digits in front of the point: those that no longer fit only count. -/
def Digits.whole (d : Digits) : List Char → Digits
  | [] => d
  | c :: cs =>
    let next := d.value * 10 + Text.digitValue c
    if d.full ∨ digitsBound ≤ next then Digits.whole { d with power := d.power + 1, full := true } cs
    else Digits.whole { d with value := next } cs

/-- Adds digits behind the point: those that no longer fit are dropped. -/
def Digits.fraction (d : Digits) : List Char → Digits
  | [] => d
  | c :: cs =>
    let next := d.value * 10 + Text.digitValue c
    if d.full ∨ digitsBound ≤ next then { d with full := true }
    else Digits.fraction { d with value := next, power := d.power - 1 } cs

/-- The number that digits and an exponent make; beyond 32 bits the exponent decides alone. -/
def realOf (negative : Bool) (d : Digits) (exponent : Int) : Json :=
  let x? :=
    if d.value = 0 ∨ exponent ≤ -2147483648 then some Binary64.zero
    else if 2147483648 ≤ exponent then none
    else Binary64.ofDecimal? d.value (d.power + exponent)
  match x? with
  | some x => .real { x with negative }
  | none => .unreadable

/-- The exponent of a number, if one follows. -/
def scanExponent (cs : List Char) : Option (Option Int × List Char) :=
  match cs with
  | c :: rest =>
    if c = 'e' ∨ c = 'E' then
      let (negative, rest) := match rest with
        | '-' :: rest => (true, rest)
        | '+' :: rest => (false, rest)
        | rest => (false, rest)
      let digits := rest.takeWhile Char.isDigit
      if digits = [] then none
      else
        let n : Int := Text.decimalValue digits
        some (some (if negative then -n else n), rest.drop digits.length)
    else some (none, cs)
  | [] => some (none, [])

/-- A number after its sign. -/
def scanMagnitude (negative : Bool) : Scan Json := fun cs => do
  let digits := cs.takeWhile Char.isDigit
  if digits = [] ∨ digits.length ≠ 1 ∧ digits.head? = some '0' then none
  else
    let whole := Digits.whole ⟨0, 0, false⟩ digits
    match cs.drop digits.length with
    | '.' :: rest =>
      let places := rest.takeWhile Char.isDigit
      if places = [] then none
      else
        let d := Digits.fraction { whole with full := false } places
        let (exponent, rest) ← scanExponent (rest.drop places.length)
        some (realOf negative d (exponent.getD 0), rest)
    | rest =>
      let (exponent, rest) ← scanExponent rest
      match exponent with
      | some e => some (realOf negative whole e, rest)
      | none =>
        let n : Int := if negative then -whole.value else whole.value
        if whole.full ∨ n < leastInteger ∨ negative ∧ n = 0 then some (realOf negative whole 0, rest)
        else some (.integer n, rest)

/-! ### Values -/

/-- Drops a word that the text has to begin with. -/
def scanWord (word : List Char) (v : Json) : Scan Json := fun cs =>
  if word.isPrefixOf cs then some (v, cs.drop word.length) else none

/-- The items of an array after the first bracket or a comma. -/
def scanItems (one : Scan Json) : Nat → Scan (List Json)
  | 0, _ => none
  | fuel + 1, cs => do
    let (v, rest) ← one cs
    match skipSpace rest with
    | ',' :: rest =>
      let (vs, rest) ← scanItems one fuel rest
      some (v :: vs, rest)
    | ']' :: rest => some ([v], rest)
    | _ => none

/-- The members of an object after the first brace or a comma. -/
def scanMembers (one : Scan Json) : Nat → Scan (List (Option String × Json))
  | 0, _ => none
  | fuel + 1, cs =>
    match skipSpace cs with
    | '"' :: rest => do
      let (key, rest) ← scanString rest
      match skipSpace rest with
      | ':' :: rest =>
        let (v, rest) ← one rest
        match skipSpace rest with
        | ',' :: rest =>
          let (vs, rest) ← scanMembers one fuel rest
          some ((key, v) :: vs, rest)
        | '\x7d' :: rest => some ([(key, v)], rest)
        | _ => none
      | _ => none
    | _ => none

/-- An object, if all its keys are strings. -/
def objectOf (members : List (Option String × Json)) : Json :=
  match members.mapM fun (key, v) => key.map fun key => (key, v) with
  | some members => .object members
  | none => .unreadable

/-- A string, if it is one. -/
def stringOf : Option String → Json
  | some s => .string s
  | none => .unreadable

/-- A value inside at most `depth` more levels, after white space. -/
def scanValue : Nat → Scan Json
  | depth, cs =>
    match skipSpace cs with
    | [] => none
    | c :: rest =>
      if c = '"' then (scanString rest).map fun (s, rest) => (stringOf s, rest)
      else if c = '[' then
        match depth with
        | 0 => none
        | depth + 1 =>
          match skipSpace rest with
          | ']' :: rest => some (.array [], rest)
          | rest => (scanItems (scanValue depth) (rest.length + 1) rest).map fun (vs, rest) => (.array vs, rest)
      else if c = '\x7b' then
        match depth with
        | 0 => none
        | depth + 1 =>
          match skipSpace rest with
          | '\x7d' :: rest => some (.object [], rest)
          | rest => (scanMembers (scanValue depth) (rest.length + 1) rest).map fun (vs, rest) => (objectOf vs, rest)
      else if c = '-' then scanMagnitude true rest
      else if c.isDigit then scanMagnitude false (c :: rest)
      else if c = 'n' then scanWord ['u', 'l', 'l'] .null rest
      else if c = 't' then scanWord ['r', 'u', 'e'] (.bool true) rest
      else if c = 'f' then scanWord ['a', 'l', 's', 'e'] (.bool false) rest
      else none

/-- The value of a text that follows the grammar, with unreadable parts where they stand. A text has fewer levels than
    characters. -/
def scan (s : String) : Option Json := do
  let cs := s.toList
  let (v, rest) ← scanValue cs.length cs
  if skipSpace rest = [] then some v else none

/-- The value of a JSON text. -/
def parse (s : String) : Option Json := (scan s).filter (isSound deepest)

end Json
end DurableQueue
