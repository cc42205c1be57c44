import DurableQueue.Json.Walk

/-! Walks over what is wanted: strings, numbers, words, lists and records. Each gives the value that it has passed. -/

namespace DurableQueue
namespace Json
namespace Walk

/-- Stops at a value of another kind than the wanted one. -/
def mismatch {α : Type} (wanted : String) : Walk α := do
  let found (v : Json) : Walk α := stop (Fault.wrongKind v wanted).message
  match ← ahead with
  | some 'n' => word ['n', 'u', 'l', 'l']; found .null
  | some 't' => word ['t', 'r', 'u', 'e']; found (.bool true)
  | some 'f' => word ['f', 'a', 'l', 's', 'e']; found (.bool false)
  | some '"' => do found (.string (← string))
  | some '[' => found (.array [])
  | some '\x7b' => found (.object [])
  | some c => if c = '-' || c.isDigit then do found (← numeral) else stopAhead .noValue
  | none => stopAhead .noValue

/-- Passes white space, and gives the first character of the value behind it. -/
def start : Walk Char := do
  match ← space with
  | some c => return c
  | none => stopAhead .endOfValue

/-- A string. -/
def aString (wanted : String) : Walk Json := do
  if (← start) = '"' then return .string (← string) else mismatch wanted

/-- A string under a rule that is applied behind it. -/
def aRuledString {α : Type} (rule : Decoder α) : Walk Json := do
  let v ← aString "a string"
  match rule v with
  | .ok _ => return v
  | .error fault => stopLater fault

/-- A number that a decoder takes. -/
def aNumber (wanted : String) (decode : Decoder Nat) : Walk Json := do
  let c ← start
  if c = '-' || c.isDigit then do
    let v ← numeral
    match decode v with
    | .ok _ => return v
    | .error fault => stop fault.message
  else mismatch wanted

/-- One of some words, alone or as the only key of an object with `null` behind it. -/
def aWord (known : List String) : Walk Json := do
  let named : Walk Json := do
    match ← aString "variant identifier" with
    | .string w => if known.contains w then return .string w else stop (Fault.unknownVariant w known).message
    | v => return v
  match ← start with
  | '"' => named
  | '\x7b' => do
    pass
    let v ← named
    colon
    if (← start) = 'n' then word ['n', 'u', 'l', 'l'] else mismatch "unit"
    match ← space with
    | some '\x7d' => pass; return v
    | some _ => stop GrammarFault.noValue.message
    | none => stop GrammarFault.endOfObject.message
  | _ => stopAhead .noValue

/-! ### Lists -/

/-- Whether another item follows, whose comma is then passed. -/
def anotherItem (first : Bool) : Walk Bool := do
  match ← space with
  | none => stopAhead .endOfList
  | some ']' => return false
  | some ',' =>
    if first then return true
    else do
      pass
      match ← space with
      | some ']' => stopAhead .trailingComma
      | some _ => return true
      | none => stopAhead .endOfValue
  | some _ => if first then return true else stopAhead .noListComma

/-- Passes the closing bracket of an array. -/
def closeArray : Walk Unit := do
  match ← space with
  | some ']' => pass
  | some ',' => do
    pass
    if (← space) = some ']' then stopAhead .trailingComma else stopAhead .trailingCharacters
  | some _ => stopAhead .trailingCharacters
  | none => stopAhead .endOfList

/-- Leaves a value by its closing part. A fault inside that has no place yet gets the one behind the closing part, or
    where that is missed. -/
def within {α : Type} (close : Walk Unit) (body : Walk α) : Walk α := fun cur =>
  match body cur with
  | .ok (a, cur) => (do close; return a : Walk α).run cur
  | .error s =>
    match s.place with
    | some _ => .error s
    | none =>
      let left := match close.run s.cursor with
        | .ok (_, cur) => cur
        | .error missed => missed.cursor
      .error { s with place := some left.place }

/-- The items of a list. The bound is above the length of the text. -/
def itemsOf (one : Walk Json) : Nat → Bool → Walk (List Json)
  | 0, _ => stopAhead .endOfList
  | fuel + 1, first => do
    if ← anotherItem first then do
      let v ← one
      return v :: (← itemsOf one fuel false)
    else return []

/-- A list. -/
def aList (one : Walk Json) : Walk Json := do
  if (← start) = '[' then do
    pass
    return .array (← within closeArray (do itemsOf one ((← get).rest.length + 1) true))
  else mismatch "a sequence"

/-! ### Records -/

/-- A field of a record: its name, where it may be left out, and its value. -/
structure Leg where
  name : String
  /-- An object and an array need not have it. -/
  optional : Bool
  value : Walk Json

/-- Whether another member follows, whose comma is then passed. -/
def anotherKey (first : Bool) : Walk Bool := do
  let key : Option Char → Walk Bool
    | some '"' => return true
    | _ => stopAhead .keyNoString
  match ← space with
  | none => stopAhead .endOfObject
  | some '\x7d' => return false
  | some ',' =>
    if first then stopAhead .keyNoString
    else do
      pass
      match ← space with
      | some '\x7d' => stopAhead .trailingComma
      | none => stopAhead .endOfValue
      | c => key c
  | c => if first then key c else stopAhead .noObjectComma

/-- Passes the closing brace of an object. -/
def closeObject : Walk Unit := do
  match ← space with
  | some '\x7d' => pass
  | some ',' => stopAhead .trailingComma
  | some _ => stopAhead .trailingCharacters
  | none => stopAhead .endOfObject

/-- The kind of a record. -/
structure Form where
  /-- What messages call it. -/
  name : String
  /-- What messages call it when an array for it is too short. -/
  lengthName : String
  legs : List Leg
  /-- What happens at a member of another name, where there is something to happen. -/
  stranger : String → Option Fault
  /-- What its values have to be to each other. -/
  rule : Members → Except Fault Unit

/-- The members of a record that is written as an object. -/
def membersOf (form : Walk.Form) : Nat → Bool → Members → Walk Members
  | 0, _, _ => stopAhead .endOfObject
  | fuel + 1, first, seen => do
    if ← anotherKey first then do
      let key ← string
      match form.legs.find? (·.name = key) with
      | some leg =>
        if (seen.lookup key).isSome then stopLater (.duplicateField key)
        else do
          colon
          let v ← leg.value
          membersOf form fuel false (seen ++ [(key, v)])
      | none =>
        match form.stranger key with
        | some fault => stopLater fault
        | none => do
          colon
          loose ((← get).rest.length + 1)
          membersOf form fuel false seen
    else
      match form.legs.find? fun leg => !leg.optional && (seen.lookup leg.name).isNone with
      | some leg => stopLater (.missingField leg.name)
      | none => return seen

/-- The members of a record that is written as an array. -/
def placesOf (form : Walk.Form) : List Leg → Nat → Bool → Members → Walk Members
  | [], _, _, seen => return seen
  | leg :: legs, place, first, seen => do
    if ← anotherItem first then do
      let v ← leg.value
      placesOf form legs (place + 1) false (seen ++ [(leg.name, v)])
    else if leg.optional then placesOf form legs (place + 1) first seen
    else stopLater (.wrongLength place form.lengthName)

/-- A record that is written as an object or as an array. -/
def aRecord (form : Walk.Form) : Walk Json := do
  let ruled (members : Walk Members) : Walk Members := do
    let members ← members
    match form.rule members with
    | .ok () => return members
    | .error fault => stopLater fault
  match ← start with
  | '[' => do
    pass
    return .object (← within closeArray (ruled (placesOf form form.legs 0 true [])))
  | '\x7b' => do
    pass
    let fuel := (← get).rest.length + 1
    return .object (← within closeObject (ruled (membersOf form fuel true [])))
  | _ => mismatch ("struct " ++ form.name)

/-- A length of time. -/
def aSpan : Walk Json := aRecord
  { name := "Duration"
    lengthName := "struct Duration"
    legs := [⟨"secs", false, aNumber "u64" decodeSeconds⟩, ⟨"nanos", false, aNumber "u32" decodeNanos⟩]
    stranger := fun name => some (.unknownField name spanParts)
    rule := fun members => do
      let _ ← spanOf (← members.required "secs" decodeSeconds) (← members.required "nanos" decodeNanos)
      .ok () }

/-- An array of bytes. -/
def bytes : Walk Json := aList (aNumber "u8" fun v => (decodeByte v).map UInt8.toNat)

end Walk
end Json
end DurableQueue
