import DurableQueue.Json.Decode

/-! Walking over a JSON text from left to right, up to the first place where it is not what is wanted. Reading a text says
    whether it holds a value; walking says where it goes wrong. A walk stops at the first fault of either kind, of the
    grammar or of what is wanted, so that a text that is no JSON can still be blamed for a wrong value before that. -/

namespace DurableQueue
namespace Json

/-- A place in a text: a line, and how many bytes of it have been passed. -/
structure Place where
  line : Nat := 1
  column : Nat := 0
  deriving DecidableEq, Repr

namespace Place

/-- The place behind a character. -/
def behind (p : Place) (c : Char) : Place :=
  if c = '\n' then ⟨p.line + 1, 0⟩ else { p with column := p.column + c.utf8Size }

/-- The place of a character that is looked at: behind its first byte. -/
def on (p : Place) (c : Char) : Place := if c = '\n' then ⟨p.line + 1, 0⟩ else { p with column := p.column + 1 }

end Place

/-- What is left of a text, and where it begins. -/
structure Cursor where
  rest : List Char
  place : Place := {}
  deriving Repr

namespace Cursor

/-- The cursor behind the next character. -/
def next (cur : Cursor) : Cursor :=
  match cur.rest with
  | [] => cur
  | c :: cs => ⟨cs, cur.place.behind c⟩

/-- The cursor behind so many characters. -/
def skip : Nat → Cursor → Cursor
  | 0, cur => cur
  | n + 1, cur => skip n cur.next

/-- The cursor behind all characters of a kind that come next. -/
def skipWhile (cur : Cursor) (kind : Char → Bool) : Cursor := cur.skip (cur.rest.takeWhile kind).length

/-- The place of the next character. -/
def ahead (cur : Cursor) : Place :=
  match cur.rest with
  | [] => cur.place
  | c :: _ => cur.place.on c

end Cursor

/-- Why a text is not JSON. -/
inductive GrammarFault where
  | endOfList
  | endOfObject
  | endOfString
  | endOfValue
  | noColon
  | noListComma
  | noObjectComma
  | wrongWord
  | noValue
  | wrongEscape
  | wrongNumber
  | numberTooLarge
  | controlCharacter
  | keyNoString
  | loneSurrogate
  | halfSurrogate
  | trailingComma
  | trailingCharacters
  deriving DecidableEq, Repr

/-- What a reader of the message is told. -/
def GrammarFault.message : GrammarFault → String
  | endOfList => "EOF while parsing a list"
  | endOfObject => "EOF while parsing an object"
  | endOfString => "EOF while parsing a string"
  | endOfValue => "EOF while parsing a value"
  | noColon => "expected `:`"
  | noListComma => "expected `,` or `]`"
  | noObjectComma => "expected `,` or `\x7d`"
  | wrongWord => "expected ident"
  | noValue => "expected value"
  | wrongEscape => "invalid escape"
  | wrongNumber => "invalid number"
  | numberTooLarge => "number out of range"
  | controlCharacter => "control character (\\u0000-\\u001F) found while parsing a string"
  | keyNoString => "key must be a string"
  | loneSurrogate => "lone leading surrogate in hex escape"
  | halfSurrogate => "unexpected end of hex escape"
  | trailingComma => "trailing comma"
  | trailingCharacters => "trailing characters"

/-- Where a walk stops, and why. A fault that only the surrounding value notices has no place until that value has been
    left. -/
structure Stop where
  message : String
  cursor : Cursor
  place : Option Place
  deriving Repr

/-- The message with its place. -/
def Stop.text (s : Stop) : String :=
  match s.place with
  | none => s.message
  | some p => s.message ++ " at line " ++ toString p.line ++ " column " ++ toString p.column

/-- A walk over a part of a text. -/
abbrev Walk := StateT Cursor (Except Stop)

namespace Walk

/-- Stops with a fault of what has been passed. -/
def stop {α : Type} (message : String) : Walk α := fun cur => .error ⟨message, cur, some cur.place⟩

/-- Stops with a fault of what comes next. -/
def stopAhead {α : Type} (fault : GrammarFault) : Walk α := fun cur => .error ⟨fault.message, cur, some cur.ahead⟩

/-- Stops with a fault that only the surrounding value notices. -/
def stopLater {α : Type} (fault : Fault) : Walk α := fun cur => .error ⟨fault.message, cur, none⟩

/-- The next character. -/
def ahead : Walk (Option Char) := do return (← get).rest.head?

/-- Passes the next character. -/
def pass : Walk Unit := modify Cursor.next

/-- Passes white space, and gives the character behind it. -/
def space : Walk (Option Char) := do
  modify (·.skipWhile isSpace)
  ahead

/-! ### The grammar -/

/-- Passes the given characters. -/
def word : List Char → Walk Unit
  | [] => return ()
  | c :: cs => do
    match ← ahead with
    | none => stopAhead .endOfValue
    | some d => if d = c then do pass; word cs else stopAhead .wrongWord

/-- Passes four hexadecimal digits. -/
def hex : Walk Nat := do
  let cur ← get
  set (cur.skip 4)
  if cur.rest.length < 4 then stop GrammarFault.endOfString.message
  else match scanHex cur.rest with
    | some (n, _) => return n
    | none => stop GrammarFault.wrongEscape.message

/-- Passes a character inside a surrogate pair. -/
def inPair (c : Char) : Walk Unit := do
  match ← ahead with
  | none => stopAhead .endOfString
  | some d => if d = c then pass else stopAhead .halfSurrogate

/-- Passes what follows `\u`. If it has to be a character, it is not half of a surrogate pair. -/
def unicode (strict : Bool) : Walk Unit := do
  let unit ← hex
  if strict && 0xDC00 ≤ unit && unit < 0xE000 then stop GrammarFault.loneSurrogate.message
  if strict && 0xD800 ≤ unit && unit < 0xDC00 then do
    inPair '\\'
    inPair 'u'
    let low ← hex
    if low < 0xDC00 || 0xE000 ≤ low then stop GrammarFault.loneSurrogate.message

/-- Passes what follows a backslash. -/
def escape (strict : Bool) : Walk Unit := do
  match ← ahead with
  | none => stopAhead .endOfString
  | some 'u' => pass; unicode strict
  | some c => if (shortEscape? c).isSome then pass else stopAhead .wrongEscape

/-- Passes the characters of a string up to its closing quote. The bound is above the length of the text. -/
def chars (strict : Bool) : Nat → Walk Unit
  | 0 => stopAhead .endOfString
  | fuel + 1 => do
    match ← ahead with
    | none => stopAhead .endOfString
    | some '"' => pass
    | some '\\' => pass; escape strict; chars strict fuel
    | some c => if c.toNat < 0x20 then stopAhead .controlCharacter else do pass; chars strict fuel

/-- Passes a string, opening quote and all, and gives it. -/
def string : Walk String := do
  pass
  let cs := (← get).rest
  chars true (cs.length + 1)
  return ((scanString cs).bind (·.1)).getD ""

/-- Passes a string that nobody wants. -/
def looseString : Walk Unit := do
  pass
  chars false ((← get).rest.length + 1)

/-- Passes one or more digits. At the end of the text the given fault counts. -/
def digits (atEnd : GrammarFault) : Walk Unit := do
  match ← ahead with
  | none => stopAhead atEnd
  | some c => if c.isDigit then modify (·.skipWhile Char.isDigit) else stopAhead .wrongNumber

/-- Passes the exponent of a number, if one follows. -/
def exponent (atEnd : GrammarFault) : Walk Unit := do
  match ← ahead with
  | some c =>
    if c = 'e' || c = 'E' then do
      pass
      match ← ahead with
      | some '+' | some '-' => pass
      | _ => pure ()
      digits atEnd
  | none => return ()

/-- Passes a number. -/
def number (atEnd : GrammarFault) : Walk Unit := do
  if (← ahead) = some '-' then pass
  match ← ahead with
  | some '0' => do
    pass
    match ← ahead with
    | some c => if c.isDigit then stopAhead .wrongNumber
    | none => pure ()
  | _ => digits atEnd
  if (← ahead) = some '.' then do
    pass
    digits atEnd
  exponent atEnd

/-- Passes a number, and gives it. -/
def numeral : Walk Json := do
  let cs := (← get).rest
  number .endOfValue
  match cs with
  | '-' :: cs => given (scanMagnitude true cs)
  | cs => given (scanMagnitude false cs)
where
  /-- The number, unless it is too large. -/
  given : Option (Json × List Char) → Walk Json
    | some (.unreadable, _) | none => stop GrammarFault.numberTooLarge.message
    | some (v, _) => return v

/-- Passes a colon. -/
def colon : Walk Unit := do
  match ← space with
  | some ':' => pass
  | some _ => stopAhead .noColon
  | none => stopAhead .endOfObject

/-- Passes the quote, the key and the colon of a member that nobody wants. -/
def looseKey : Walk Unit := do
  match ← space with
  | some '"' => looseString; colon
  | some _ => stopAhead .keyNoString
  | none => stopAhead .endOfObject

/-- Passes a value that nobody wants. The bound is above the length of the text. -/
def loose : Nat → Walk Unit
  | 0 => stopAhead .endOfValue
  | fuel + 1 => do
    match ← space with
    | none => stopAhead .endOfValue
    | some 'n' => word ['n', 'u', 'l', 'l']
    | some 't' => word ['t', 'r', 'u', 'e']
    | some 'f' => word ['f', 'a', 'l', 's', 'e']
    | some '"' => looseString
    | some '[' => do
      pass
      match ← space with
      | some ']' => pass
      | none => stopAhead .endOfList
      | some _ => items fuel
    | some '\x7b' => do
      pass
      match ← space with
      | some '\x7d' => pass
      | _ => members fuel
    | some c => if c = '-' || c.isDigit then number .wrongNumber else stopAhead .noValue
where
  /-- Passes the items of an array up to its closing bracket. -/
  items : Nat → Walk Unit
    | 0 => stopAhead .endOfList
    | fuel + 1 => do
      loose fuel
      match ← space with
      | some ',' => pass; items fuel
      | some ']' => pass
      | some _ => stopAhead .noListComma
      | none => stopAhead .endOfList
  /-- Passes the members of an object up to its closing brace. -/
  members : Nat → Walk Unit
    | 0 => stopAhead .endOfObject
    | fuel + 1 => do
      looseKey
      loose fuel
      match ← space with
      | some ',' => pass; members fuel
      | some '\x7d' => pass
      | some _ => stopAhead .noObjectComma
      | none => stopAhead .endOfObject

/-- Passes the end of the text. -/
def finish : Walk Unit := do
  match ← space with
  | some _ => stopAhead .trailingCharacters
  | none => return ()

end Walk

/-- Walks over a whole text, and says where that stops before the end. -/
def stopOf {α : Type} (walk : Walk α) (text : String) : Option Stop :=
  match (do let _ ← walk; Walk.finish : Walk Unit).run ⟨text.toList, {}⟩ with
  | .ok _ => none
  | .error s => some s

end Json
end DurableQueue
