import KeyStore.Bytes

/-!
# RSA keys

Pairs and quintuples of natural numbers that make up RSA keys. The conditions are those that can be
checked without factoring: the parity and range of the public numbers, the product of the two
factors, and the congruences of the exponents. That the factors are prime is not checked.
-/

namespace KeyStore

namespace Rsa

def maxExponent : Nat := Nat.pow 2 33 - 1

/-- Whether a modulus and a public exponent go together: both are odd, and the exponent lies between
two and its greatest value, below the modulus. -/
def IsPublicPair (modulus exponent : Nat) : Prop :=
  exponent < modulus ∧ modulus % 2 = 1 ∧ exponent % 2 = 1 ∧ 2 ≤ exponent ∧ exponent ≤ maxExponent

instance (modulus exponent : Nat) : Decidable (IsPublicPair modulus exponent) :=
  inferInstanceAs (Decidable (_ ∧ _))

structure PublicKey where
  modulus : Nat
  exponent : Nat
  isPublicPair : IsPublicPair modulus exponent
deriving DecidableEq

def PublicKey.size (key : PublicKey) : Nat :=
  bitLength key.modulus

/-- Whether a private exponent and two factors belong to a modulus and a public exponent. -/
def IsPrivatePart (modulus exponent privateExponent p q : Nat) : Prop :=
  1 < p ∧ 1 < q ∧ p * q = modulus ∧ privateExponent * exponent % (p - 1) = 1 ∧
    privateExponent * exponent % (q - 1) = 1

instance (modulus exponent privateExponent p q : Nat) :
    Decidable (IsPrivatePart modulus exponent privateExponent p q) :=
  inferInstanceAs (Decidable (_ ∧ _))

structure PrivateKey where
  publicKey : PublicKey
  exponent : Nat
  p : Nat
  q : Nat
  isPrivatePart : IsPrivatePart publicKey.modulus publicKey.exponent exponent p q
deriving DecidableEq

/-- The greatest common divisor of `left` and `right`, with the factor of a combination that yields
it. The factors of `left` and `right` themselves are `leftFactor` and `rightFactor`. -/
def commonDivisor (left right : Nat) (leftFactor rightFactor : Int) : Nat × Int :=
  if zero : right = 0 then
    (left, leftFactor)
  else
    have := Nat.mod_lt left (Nat.pos_of_ne_zero zero)
    commonDivisor right (left % right) rightFactor
      (leftFactor - Int.ofNat (left / right) * rightFactor)
termination_by right

/-- The inverse of `number` modulo `modulus`, if there is one. -/
def inverse? (number modulus : Nat) : Option Nat :=
  let (divisor, factor) := commonDivisor number modulus 1 0
  if divisor = 1 then some (factor % Int.ofNat modulus).toNat else none

def PrivateKey.exponentP (key : PrivateKey) : Nat :=
  key.exponent % (key.p - 1)

def PrivateKey.exponentQ (key : PrivateKey) : Nat :=
  key.exponent % (key.q - 1)

def PrivateKey.coefficient? (key : PrivateKey) : Option Nat :=
  inverse? key.q key.p

structure Precomputed where
  exponentP : Nat
  exponentQ : Nat
deriving DecidableEq, Repr

/-- What a key keeps at hand: nothing, if the second factor has no inverse modulo the first. -/
def PrivateKey.precomputed? (key : PrivateKey) : Option Precomputed :=
  if key.coefficient?.isSome then some ⟨key.exponentP, key.exponentQ⟩ else none

end Rsa

end KeyStore
