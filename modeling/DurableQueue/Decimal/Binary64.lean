/-! Binary numbers of 64 bits: a sign and a whole number below 2^53 times a power of two. All arithmetic is exact and is
    rounded once, to the nearest such number and to the even one of two that are equally near. -/

namespace DurableQueue

/-- A finite binary number: `mantissa` times a power of two, with a sign. -/
structure Binary64 where
  negative : Bool
  mantissa : Nat
  exponent : Int
  deriving DecidableEq, Repr

namespace Binary64

/-- The least exponent; numbers that need a lower one lose digits instead. -/
def leastExponent : Int := -1074

/-- The least mantissa of a number that has all its 53 binary digits. -/
def leastFull : Nat := 4503599627370496

/-- The greatest exponent. -/
def greatestExponent : Int := 971

def zero : Binary64 := ⟨false, 0, leastExponent⟩

/-- A quotient rounded to the nearest whole number, and to the even one of two. -/
def roundQuotient (num den : Nat) : Nat :=
  let q := num / den
  let twice := 2 * (num % den)
  if twice < den ∨ twice = den ∧ q % 2 = 0 then q else q + 1

/-- `num / den * 2 ^ (-shift)` as a quotient. -/
def scaled (num den : Nat) (shift : Int) : Nat × Nat :=
  if 0 ≤ shift then (num, den * Nat.pow 2 shift.toNat) else (num * Nat.pow 2 (-shift).toNat, den)

/-- The exponent at which a quotient has 53 binary digits, and at least the least one. -/
def exponentOf (num den : Nat) : Int :=
  let guess : Int := (num.log2 : Int) - (den.log2 : Int) - 52
  let (n, d) := scaled num den guess
  max leastExponent (if n < d * leastFull then guess - 1 else guess)

/-- The binary number nearest to a quotient, or none if it is too large. -/
def ofQuotient? (num den : Nat) : Option Binary64 :=
  if num = 0 then some zero
  else
    let exponent := exponentOf num den
    let (n, d) := scaled num den exponent
    let q := roundQuotient n d
    let rounded : Binary64 := if q = 2 * leastFull then ⟨false, leastFull, exponent + 1⟩ else ⟨false, q, exponent⟩
    if rounded.exponent ≤ greatestExponent then some rounded else none

/-- The size of a number as a quotient. -/
def quotient (x : Binary64) : Nat × Nat :=
  if 0 ≤ x.exponent then (x.mantissa * Nat.pow 2 x.exponent.toNat, 1) else (x.mantissa, Nat.pow 2 (-x.exponent).toNat)

/-- The size of a product, rounded. -/
def mul? (x y : Binary64) : Option Binary64 :=
  ofQuotient? (x.quotient.1 * y.quotient.1) (x.quotient.2 * y.quotient.2)

/-- The size of a quotient of two numbers, rounded. -/
def div? (x y : Binary64) : Option Binary64 :=
  ofQuotient? (x.quotient.1 * y.quotient.2) (x.quotient.2 * y.quotient.1)

/-- The greatest power of ten that is itself a binary number of this kind, after rounding. -/
def greatestTenPower : Nat := 308

/-- A power of ten, rounded. -/
def tenPower? (k : Nat) : Option Binary64 := ofQuotient? (Nat.pow 10 k) 1

/-- Divides by 10^308 while the power of ten still to divide by is larger. -/
def divByTens : Nat → Binary64 → Nat → Option Binary64
  | 0, _, _ => some zero
  | fuel + 1, x, k =>
    if x.mantissa = 0 then some x
    else if k ≤ greatestTenPower then do x.div? (← tenPower? k)
    else do divByTens fuel (← x.div? (← tenPower? greatestTenPower)) (k - greatestTenPower)

/-- `digits * 10 ^ power`, found by rounding the digits, rounding the power and rounding the result, so that it may miss
    the nearest number by a little. There is none where the result is too large. -/
def ofDecimal? (digits : Nat) (power : Int) : Option Binary64 := do
  let x ← ofQuotient? digits 1
  if power < 0 then divByTens (power.natAbs / greatestTenPower + 2) x power.natAbs
  else if power.toNat ≤ greatestTenPower then x.mul? (← tenPower? power.toNat)
  else if x.mantissa = 0 then some x
  else none

end Binary64
end DurableQueue
