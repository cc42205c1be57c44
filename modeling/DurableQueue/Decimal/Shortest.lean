import DurableQueue.Decimal.Binary64
import DurableQueue.Text.Number

/-! The shortest decimal that reads back as a given binary number, and its text: positional for numbers of moderate size,
    with an exponent for others. Numbers that read back form an interval around the binary number, whose ends belong to it
    when the mantissa is even. -/

namespace DurableQueue
namespace Binary64

/-- A decimal: `digits * 10 ^ power`. -/
structure Decimal where
  digits : Nat
  power : Int
  deriving DecidableEq, Repr

/-- The interval that rounds to a positive number, its middle and a common denominator, in quarters of its last place. -/
structure Reach where
  low : Nat
  middle : Nat
  high : Nat
  unit : Nat
  closed : Bool

/-- The interval that rounds to a positive number. Below a power of two the numbers lie twice as close. -/
def reach (x : Binary64) : Reach :=
  let below := if x.mantissa = Binary64.leastFull ∧ leastExponent < x.exponent then 1 else 2
  let shift := x.exponent - 2
  let factor := Nat.pow 2 shift.toNat
  { low := (4 * x.mantissa - below) * factor
    middle := 4 * x.mantissa * factor
    high := (4 * x.mantissa + 2) * factor
    unit := Nat.pow 2 (-shift).toNat
    closed := x.mantissa % 2 = 0 }

/-- Whether `n / d` lies in the interval. -/
def Reach.holds (r : Reach) (n d : Nat) : Bool :=
  let low := r.low * d
  let high := r.high * d
  let point := n * r.unit
  if r.closed then low ≤ point && point ≤ high else low < point && point < high

/-- The point of the grid with step `10 ^ power` that is nearest to the middle among those in the interval. -/
def Reach.onGrid? (r : Reach) (power : Int) : Option Decimal :=
  let up := Nat.pow 10 power.toNat
  let down := Nat.pow 10 (-power).toNat
  let num := r.middle * down
  let den := r.unit * up
  let floor := num / den
  let nearest := roundQuotient num den
  let other := if nearest = floor then floor + 1 else floor
  let inside (n : Nat) : Bool := n ≠ 0 && r.holds (n * up) down
  if inside nearest then some ⟨nearest, power⟩
  else if inside other then some ⟨other, power⟩
  else none

/-- The first hit on grids that become ten times finer at each step. -/
def Reach.search (r : Reach) : Nat → Int → Decimal
  | 0, power => ⟨r.middle, power⟩
  | fuel + 1, power =>
    match r.onGrid? power with
    | some d => d
    | none => r.search fuel (power - 1)

/-- A decimal without zeros at the end of its digits. -/
def Decimal.reduced : Nat → Decimal → Decimal
  | 0, d => d
  | fuel + 1, d =>
    if d.digits % 10 = 0 ∧ d.digits ≠ 0 then Decimal.reduced fuel ⟨d.digits / 10, d.power + 1⟩ else d

/-- The shortest decimal that reads back as the number, without its sign. -/
def shortest (x : Binary64) : Decimal :=
  if x.mantissa = 0 then ⟨0, 0⟩
  else
    let r := x.reach
    let tens : Int := (toString (r.middle / r.unit)).length
    let tiny : Int := (toString (r.unit / r.middle)).length
    let start := if r.unit ≤ r.middle then tens else 1 - tiny
    (r.search 20 start).reduced 400

/-- The sign in front of a negative number. -/
def signText (x : Binary64) : String := if x.negative then "-" else ""

/-- Digits with a point so many places before their end, and a digit on both sides of it. -/
def pointed (digits : String) (places : Nat) : String :=
  let filled := String.ofList (List.replicate (places + 1 - digits.length) '0') ++ digits
  let whole := filled.length - places
  String.ofList (filled.toList.take whole) ++ "." ++ String.ofList (filled.toList.drop whole)

/-- Whether a decimal with its point behind so many digits is written positionally: from 10^-5 up to 10^16. -/
def isModerate (places : Int) : Bool := -5 < places && places ≤ 16

/-- The exponent of a power of ten with its sign. -/
def exponentText (n : Int) : String := "e" ++ (if n < 0 then "-" else "+") ++ toString n.natAbs

/-- The text of a number; a positional one has a digit on both sides of the point. -/
def text (x : Binary64) : String :=
  let d := x.shortest
  let digits := toString d.digits
  let places : Int := digits.length + d.power
  x.signText ++
    (if d.digits = 0 ∨ isModerate places then
      (if 0 ≤ d.power then digits ++ String.ofList (List.replicate d.power.toNat '0') ++ ".0"
       else pointed digits d.power.natAbs)
    else
      let rest := String.ofList (digits.toList.drop 1)
      String.ofList (digits.toList.take 1) ++ (if rest = "" then "" else "." ++ rest) ++ exponentText (places - 1))

end Binary64
end DurableQueue
