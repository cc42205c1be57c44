/-! The fields of a cron expression: their names, the values they admit, the names of months and days, and the items that
    choose values. An item is a value, a range, all values, each of these with a step, or a name; what it chooses is an
    ascending list of values. -/

namespace DurableQueue
namespace Schedule

/-- A field of a cron expression. -/
inductive Field where
  | seconds
  | minutes
  | hours
  | daysOfMonth
  | months
  | daysOfWeek
  | years
  deriving DecidableEq, Repr

namespace Field

def name : Field → String
  | seconds => "Seconds"
  | minutes => "Minutes"
  | hours => "Hours"
  | daysOfMonth => "Days of Month"
  | months => "Months"
  | daysOfWeek => "Days of Week"
  | years => "Years"

/-- The least value. -/
def least : Field → Nat
  | seconds | minutes | hours => 0
  | daysOfMonth | months | daysOfWeek => 1
  | years => 1970

/-- The greatest value. -/
def greatest : Field → Nat
  | seconds | minutes => 59
  | hours => 23
  | daysOfMonth => 31
  | months => 12
  | daysOfWeek => 7
  | years => 2100

/-- Whether `?` may stand for all values. -/
def takesAny : Field → Bool
  | daysOfMonth | daysOfWeek => true
  | _ => false

/-- All values, ascending. -/
def all (f : Field) : List Nat := List.range' f.least (f.greatest + 1 - f.least)

end Field

/-- The names of the months in order, each in all its spellings. -/
def monthNames : List (List String) :=
  [["jan", "january"], ["feb", "february"], ["mar", "march"], ["apr", "april"], ["may"], ["jun", "june"],
    ["jul", "july"], ["aug", "august"], ["sep", "september"], ["oct", "october"], ["nov", "november"],
    ["dec", "december"]]

/-- The names of the days of the week in order, each in all its spellings. -/
def dayNames : List (List String) :=
  [["sun", "sunday"], ["mon", "monday"], ["tue", "tues", "tuesday"], ["wed", "wednesday"],
    ["thu", "thurs", "thursday"], ["fri", "friday"], ["sat", "saturday"]]

/-- The place of a name, counted from 1, in any letter case. -/
def placeOf? (names : List (List String)) (name : String) : Option Nat :=
  (names.findIdx? (·.contains name.toLower)).map (· + 1)

/-- What an item chooses from before a step is taken. -/
inductive Base where
  | all
  | point (value : Nat)
  | range (first last : Nat)
  | namedRange (first last : String)
  deriving DecidableEq, Repr

/-- One of the things between the commas of a field. -/
inductive Item where
  | plain (base : Base)
  | stepped (base : Base) (step : Nat)
  | named (name : String)
  deriving DecidableEq, Repr

/-- Why a field has no values. -/
inductive FieldFault where
  | zeroStep
  | stepTooLarge (field : Field) (step : Nat)
  | tooLarge (field : Field) (value : Nat)
  | tooSmall (field : Field) (value : Nat)
  | badRange (field : Field) (first last : Nat)
  | badNamedRange (field : Field) (first last : String)
  | unknownMonth (name : String)
  | unknownDay (name : String)
  | nameless (field : Field) (name : String)
  deriving DecidableEq, Repr

/-- What a reader of the message is told. -/
def FieldFault.message : FieldFault → String
  | .zeroStep => "range step cannot be zero"
  | .stepTooLarge field step =>
    field.name ++ " must be between 1 and " ++ toString field.greatest ++ ". ('" ++ toString step ++ "' specified.)"
  | .tooLarge field value =>
    field.name ++ " must be less than " ++ toString field.greatest ++ ". ('" ++ toString value ++ "' specified.)"
  | .tooSmall field value =>
    field.name ++ " must be greater than or equal to " ++ toString field.least ++ ". ('" ++ toString value ++
      "' specified.)"
  | .badRange field first last =>
    "Invalid range for " ++ field.name ++ ": " ++ toString first ++ "-" ++ toString last
  | .badNamedRange field first last => "Invalid named range for " ++ field.name ++ ": " ++ first ++ "-" ++ last
  | .unknownMonth name => "'" ++ name ++ "' is not a valid month name."
  | .unknownDay name => "'" ++ name ++ "' is not a valid day of the week."
  | .nameless field name =>
    "The '" ++ field.name ++ "' field does not support using names. '" ++ name ++ "' specified."

namespace Field

/-- A value that the field admits. -/
def value (f : Field) (n : Nat) : Except FieldFault Nat :=
  if n < f.least then .error (.tooSmall f n)
  else if f.greatest < n then .error (.tooLarge f n)
  else .ok n

/-- Whether the field admits a value. -/
def admits (f : Field) (n : Nat) : Bool := f.least ≤ n && n ≤ f.greatest

/-- The value that a name stands for. -/
def named (f : Field) (name : String) : Except FieldFault Nat :=
  match f with
  | months => match placeOf? monthNames name with
    | some n => .ok n
    | none => .error (.unknownMonth name)
  | daysOfWeek => match placeOf? dayNames name with
    | some n => .ok n
    | none => .error (.unknownDay name)
  | _ => .error (.nameless f name)

/-- The values from one to another, ascending. -/
def between (first last : Nat) : List Nat := List.range' first (last + 1 - first)

/-- The values that a base stands for; a point alone is not yet held against the bounds of the field. -/
def ofBase (f : Field) : Base → Except FieldFault (List Nat)
  | .all => .ok f.all
  | .point n => .ok [n]
  | .range first last =>
    if f.admits first ∧ f.admits last ∧ first ≤ last then .ok (between first last)
    else .error (.badRange f first last)
  | .namedRange first last => do
    let a ← f.named first
    let b ← f.named last
    if a ≤ b then .ok (between a b) else .error (.badNamedRange f first last)

/-- The values to take steps over: a point stands for itself and all that follows. -/
def ofSteppedBase (f : Field) : Base → Except FieldFault (List Nat)
  | .point n => (f.value n).map fun first => between first f.greatest
  | base => f.ofBase base

/-- The first of some values and then every `step`-th one. -/
def everyNth (step : Nat) (values : List Nat) : List Nat :=
  (values.zipIdx.filter fun (_, i) => i % step = 0).map (·.1)

/-- The values that an item stands for. -/
def ofItem (f : Field) : Item → Except FieldFault (List Nat)
  | .plain base => f.ofBase base
  | .stepped base step =>
    if step = 0 then .error .zeroStep
    else if f.greatest < step then .error (.stepTooLarge f step)
    else (f.ofSteppedBase base).map (everyNth step)
  | .named name => (f.named name).map fun n => [n]

/-- The values that an item stands for, all within the bounds of the field. -/
def valuesOf (f : Field) (item : Item) : Except FieldFault (List Nat) := do (← f.ofItem item).mapM f.value

/-- The values that the items of a field choose together, ascending; the first item with a fault gives it. -/
def select (f : Field) (items : List Item) : Except FieldFault (List Nat) := do
  let chosen := (← items.mapM f.valuesOf).flatten
  .ok (f.all.filter chosen.contains)

end Field
end Schedule
end DurableQueue
