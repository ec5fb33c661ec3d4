/-!
# Binary numbers of 64 bits

The numbers of the double precision format without sign, infinities and other special values, held
as `mantissa * 2 ^ exponent` with exact arithmetic on natural numbers. Each operation rounds the
exact result to the nearest such number, a tie to the even mantissa, and yields `none` where the
result is too large.
-/

namespace KeyStore

/-- A non-negative number of the double precision format. -/
structure Binary64 where
  /-- The mantissa, below `2 ^ 53`. -/
  mantissa : Nat
  /-- The exponent of two, from -1074 to 971. -/
  exponent : Int
deriving DecidableEq, Repr

namespace Binary64

def minExponent : Int := -1074

def maxExponent : Int := 971

def zero : Binary64 := ⟨0, minExponent⟩

/-- The quotient rounded to the nearest natural number, a tie to the even one. -/
def roundDiv (numerator denominator : Nat) : Nat :=
  let quotient := numerator / denominator
  let remainder := numerator % denominator
  if 2 * remainder > denominator ∨ (2 * remainder = denominator ∧ quotient % 2 = 1) then
    quotient + 1
  else
    quotient

def scale (numerator denominator : Nat) (exponent : Int) : Nat × Nat :=
  if 0 ≤ exponent then
    (numerator, denominator * Nat.pow 2 exponent.toNat)
  else
    (numerator * Nat.pow 2 (-exponent).toNat, denominator)

def ofFraction? (numerator denominator : Nat) : Option Binary64 :=
  if numerator = 0 then
    some zero
  else
    let guess : Int := Int.ofNat numerator.log2 - Int.ofNat denominator.log2 - 52
    let (top, bottom) := scale numerator denominator guess
    let tight := if top < bottom * Nat.pow 2 52 then guess - 1 else guess
    let exponent := max tight minExponent
    let (top, bottom) := scale numerator denominator exponent
    let mantissa := roundDiv top bottom
    let result : Binary64 :=
      if mantissa = Nat.pow 2 53 then ⟨Nat.pow 2 52, exponent + 1⟩ else ⟨mantissa, exponent⟩
    if result.exponent > maxExponent then none else some result

def fraction (number : Binary64) : Nat × Nat :=
  if 0 ≤ number.exponent then
    (number.mantissa * Nat.pow 2 number.exponent.toNat, 1)
  else
    (number.mantissa, Nat.pow 2 (-number.exponent).toNat)

/-- The rounded product with a power of ten that is itself rounded first. -/
def mulPowerOfTen? (number : Binary64) (power : Nat) : Option Binary64 := do
  let factor ← ofFraction? (Nat.pow 10 power) 1
  ofFraction? (number.fraction.1 * factor.fraction.1) (number.fraction.2 * factor.fraction.2)

/-- The rounded quotient by a power of ten that is itself rounded first. -/
def divPowerOfTen? (number : Binary64) (power : Nat) : Option Binary64 := do
  let divisor ← ofFraction? (Nat.pow 10 power) 1
  ofFraction? (number.fraction.1 * divisor.fraction.2) (number.fraction.2 * divisor.fraction.1)

def maxPowerOfTen : Nat := 308

/-- The number `number * 10 ^ exponent` in one rounded step for a moderate exponent. A smaller one
is reached by up to `steps` further steps of `10 ^ maxPowerOfTen`; each number of the format is zero
after three of them. -/
def scaleByTen? : (steps : Nat) → Binary64 → (exponent : Int) → Option Binary64
  | steps, number, exponent =>
      if number.mantissa = 0 then
        some number
      else if exponent.natAbs ≤ maxPowerOfTen then
        if 0 ≤ exponent then
          number.mulPowerOfTen? exponent.toNat
        else
          number.divPowerOfTen? (-exponent).toNat
      else if 0 ≤ exponent then
        none
      else
        match steps with
        | 0 => some zero
        | steps + 1 =>
            match number.divPowerOfTen? maxPowerOfTen with
            | some smaller => scaleByTen? steps smaller (exponent + maxPowerOfTen)
            | none => none

/-- The number nearest to `significand`, then scaled by a power of ten. -/
def ofDecimal? (significand : Nat) (exponent : Int) : Option Binary64 := do
  let number ← ofFraction? significand 1
  scaleByTen? 3 number exponent

end Binary64

end KeyStore
