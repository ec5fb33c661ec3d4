import KeyStore.Decimal.Binary64

/-!
# Shortest decimal forms

The decimal form of a number with the fewest digits that read back as the number, and among those
the nearest. It is written in positional notation while the exponent is moderate, else with an
exponent; there is always a fraction or an exponent.
-/

namespace KeyStore.Decimal

/-- A positive decimal number: its digits as one number, and the exponent of ten of the first
digit. -/
structure Form where
  /-- The digits, the first one not zero. -/
  digits : Nat
  /-- The exponent of ten that the first digit stands for. -/
  exponent : Int
deriving DecidableEq, Repr

def digitCount (number : Nat) : Nat :=
  (Nat.toDigits 10 number).length

/-- The exponent of ten of the first digit of a positive fraction. -/
def leadingExponent (numerator denominator : Nat) : Int :=
  let guess : Int := Int.ofNat (digitCount numerator) - Int.ofNat (digitCount denominator)
  let reached :=
    if 0 ≤ guess then numerator ≥ denominator * Nat.pow 10 guess.toNat
    else numerator * Nat.pow 10 (-guess).toNat ≥ denominator
  if reached then guess else guess - 1

def gridPoint (digits : Nat) (unit : Int) : Nat × Nat :=
  if 0 ≤ unit then (digits * Nat.pow 10 unit.toNat, 1) else (digits, Nat.pow 10 (-unit).toNat)

/-- The point of the grid of step `10 ^ unit` that reads back as `number`, if the one below the
number or the one above it does; of two the nearer, of two equally near the even one. -/
def onGrid? (number : Binary64) (unit : Int) : Option Nat :=
  let (numerator, denominator) := number.fraction
  let (top, bottom) :=
    if 0 ≤ unit then (numerator, denominator * Nat.pow 10 unit.toNat)
    else (numerator * Nat.pow 10 (-unit).toNat, denominator)
  let below := top / bottom
  let readsBack := fun digits =>
    Binary64.ofFraction? (gridPoint digits unit).1 (gridPoint digits unit).2 = some number
  if Binary64.roundDiv top bottom = below then
    if readsBack below then some below
    else if readsBack (below + 1) then some (below + 1)
    else none
  else
    if readsBack (below + 1) then some (below + 1)
    else if readsBack below then some below
    else none

/-- The shortest form of a positive number among those with `count` digits or more; the number of
digits tried is bounded by `budget`. -/
def shortestFrom (number : Binary64) (leading : Int) : (budget count : Nat) → Form
  | 0, _ => ⟨1, leading⟩
  | budget + 1, count =>
      match onGrid? number (leading - Int.ofNat count + 1) with
      | some digits =>
          ⟨digits, leading + (Int.ofNat (digitCount digits) - Int.ofNat count)⟩
      | none => shortestFrom number leading budget (count + 1)

/-- The shortest form of a positive number. Seventeen digits are always enough. -/
def shortest (number : Binary64) : Form :=
  let (numerator, denominator) := number.fraction
  shortestFrom number (leadingExponent numerator denominator) 17 1

/-- Digits without the zeros at their end; one digit always stays. -/
def trimZeros (digits : List Char) : List Char :=
  match (digits.reverse.dropWhile (· = '0')).reverse with
  | [] => ['0']
  | trimmed => trimmed

def minPositional : Int := -5

def maxPositional : Int := 15

/-- The notation of a form: positional between the two bounds, with `.0` if the number is whole;
else the digits with a point after the first and a signed exponent. -/
def Form.text (form : Form) : String :=
  let digits := trimZeros (Nat.toDigits 10 form.digits)
  if minPositional ≤ form.exponent ∧ form.exponent ≤ maxPositional then
    if form.exponent < 0 then
      String.ofList
        ('0' :: '.' :: List.replicate ((-form.exponent).toNat - 1) '0' ++ digits)
    else
      let whole := form.exponent.toNat + 1
      let fraction := match digits.drop whole with
        | [] => ['0']
        | rest => rest
      String.ofList
        (digits.take whole ++ List.replicate (whole - digits.length) '0' ++ '.' :: fraction)
  else
    let point := if digits.length = 1 then [] else ['.']
    let sign := if form.exponent < 0 then '-' else '+'
    String.ofList
      (digits.take 1 ++ point ++ digits.drop 1 ++ 'e' :: sign ::
        Nat.toDigits 10 form.exponent.natAbs)

def text (number : Binary64) : String :=
  if number.mantissa = 0 then "0.0" else (shortest number).text

end KeyStore.Decimal
