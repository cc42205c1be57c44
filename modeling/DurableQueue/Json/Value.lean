import DurableQueue.Decimal.Shortest

/-! JSON values. An object keeps its members in the order of the text, also those whose key comes twice; a number is
    whole when it is written without point and exponent and fits into 64 bits, with or without a sign. A part of a text
    can be well written and yet stand for no value; it does no harm where nobody looks at it. -/

namespace DurableQueue

/-- A JSON value. -/
inductive Json where
  | null
  | bool (value : Bool)
  | integer (value : Int)
  | real (value : Binary64)
  | string (value : String)
  | array (items : List Json)
  | object (members : List (String × Json))
  /-- A number that is too large, or a string or an object with half of a surrogate pair in it or in a key. -/
  | unreadable
  deriving Repr, Inhabited

namespace Json

/-- The least whole number that a JSON number can be. -/
def leastInteger : Int := -9223372036854775808

/-- The greatest whole number that a JSON number can be. -/
def greatestInteger : Int := 18446744073709551615

/-- A natural number as a JSON value. -/
def nat (n : Nat) : Json := .integer n

/-- Bytes as an array of numbers. -/
def bytes (bs : List UInt8) : Json := .array (bs.map fun b => .integer b.toNat)

/-- Something that may be missing, as a value or as `null`. -/
def option {α : Type} (f : α → Json) : Option α → Json
  | none => .null
  | some a => f a

/-- The member of an object with a given key; of several, the last. -/
def member? (v : Json) (key : String) : Option Json :=
  match v with
  | .object members => (members.reverse.find? (·.1 = key)).map (·.2)
  | _ => none

mutual

/-- Whether a value nests at most so many levels deep and has no unreadable part. -/
def isSound (depth : Nat) : Json → Bool
  | .array items => depth ≠ 0 && allSound (depth - 1) items
  | .object members => depth ≠ 0 && membersSound (depth - 1) members
  | .unreadable => false
  | _ => true

/-- `isSound` for all items of an array. -/
def allSound (depth : Nat) : List Json → Bool
  | [] => true
  | v :: rest => isSound depth v && allSound depth rest

/-- `isSound` for all members of an object. -/
def membersSound (depth : Nat) : List (String × Json) → Bool
  | [] => true
  | (_, v) :: rest => isSound depth v && membersSound depth rest

end

/-- Puts a member among members that are sorted by key; a member with the same key gives way. -/
def insertMember (key : String) (v : Json) : List (String × Json) → List (String × Json)
  | [] => [(key, v)]
  | (k, w) :: rest =>
    if key < k then (key, v) :: (k, w) :: rest
    else if key = k then (key, v) :: rest
    else (k, w) :: insertMember key v rest

mutual

/-- A value whose objects have their members sorted by key, each key once: the last member with it stays. -/
def sorted : Json → Json
  | .array items => .array (sortedItems items)
  | .object members => .object (sortedMembers [] members)
  | v => v

/-- `sorted` for the items of an array. -/
def sortedItems : List Json → List Json
  | [] => []
  | v :: rest => sorted v :: sortedItems rest

/-- Inserts the members one by one, each sorted in itself. -/
def sortedMembers (done : List (String × Json)) : List (String × Json) → List (String × Json)
  | [] => done
  | (k, v) :: rest => sortedMembers (insertMember k (sorted v) done) rest

end

end Json
end DurableQueue
