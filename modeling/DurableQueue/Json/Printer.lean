import DurableQueue.Json.Value

/-! Writing JSON: on one line without white space, or with one item a line and two blanks a level. Both escape the quote,
    the backslash and the control characters and leave every other character as it is. -/

namespace DurableQueue
namespace Json

/-- A hexadecimal digit. -/
def hexDigit (n : Nat) : Char := Char.ofNat (if n < 10 then 48 + n else 87 + n)

/-- A character inside a string. -/
def escapeChar (c : Char) : List Char :=
  if c = '"' then ['\\', '"']
  else if c = '\\' then ['\\', '\\']
  else if c = '\x08' then ['\\', 'b']
  else if c = '\x0c' then ['\\', 'f']
  else if c = '\n' then ['\\', 'n']
  else if c = '\r' then ['\\', 'r']
  else if c = '\t' then ['\\', 't']
  else if c.toNat < 0x20 then ['\\', 'u', '0', '0', hexDigit (c.toNat / 16), hexDigit (c.toNat % 16)]
  else [c]

/-- A string between quotes. -/
def quoted (s : String) : List Char := '"' :: s.toList.flatMap escapeChar ++ ['"']

mutual

/-- The characters of a value on one line. -/
def render : Json → List Char
  | .null | .unreadable => "null".toList
  | .bool true => "true".toList
  | .bool false => "false".toList
  | .integer n => (toString n).toList
  | .real x => x.text.toList
  | .string s => quoted s
  | .array items => '[' :: renderItems items ++ [']']
  | .object members => '\x7b' :: renderMembers members ++ ['\x7d']

/-- Items with commas between them. -/
def renderItems : List Json → List Char
  | [] => []
  | [v] => render v
  | v :: rest => render v ++ ',' :: renderItems rest

/-- Members with commas between them. -/
def renderMembers : List (String × Json) → List Char
  | [] => []
  | [(k, v)] => quoted k ++ ':' :: render v
  | (k, v) :: rest => quoted k ++ ':' :: render v ++ ',' :: renderMembers rest

end

/-- A value on one line. -/
def print (v : Json) : String := String.ofList (render v)

/-- A new line at a level. -/
def newLine (level : Nat) : List Char := '\n' :: List.replicate (2 * level) ' '

mutual

/-- The characters of a value with one item a line, at a level. -/
def layout (level : Nat) : Json → List Char
  | .array [] => "[]".toList
  | .array items => '[' :: layoutItems (level + 1) items ++ newLine level ++ [']']
  | .object [] => ['\x7b', '\x7d']
  | .object members => '\x7b' :: layoutMembers (level + 1) members ++ newLine level ++ ['\x7d']
  | v => render v

/-- Items, one a line. -/
def layoutItems (level : Nat) : List Json → List Char
  | [] => []
  | [v] => newLine level ++ layout level v
  | v :: rest => newLine level ++ layout level v ++ ',' :: layoutItems level rest

/-- Members, one a line. -/
def layoutMembers (level : Nat) : List (String × Json) → List Char
  | [] => []
  | [(k, v)] => newLine level ++ quoted k ++ ':' :: ' ' :: layout level v
  | (k, v) :: rest => newLine level ++ quoted k ++ ':' :: ' ' :: layout level v ++ ',' :: layoutMembers level rest

end

/-- A value with one item a line. -/
def pretty (v : Json) : String := String.ofList (layout 0 v)

end Json
end DurableQueue
