import KeyStore.Rsa.Key
import Mathlib.Algebra.BigOperators.Group.List.Lemmas
import Mathlib.Algebra.Order.Ring.Abs
import Mathlib.Data.Int.ModEq
import Mathlib.Tactic.Ring

/-!
# Numbers of private keys

The inverse that the division algorithm finds, and what follows for the numbers of a private key
from the conditions that a key meets: the factors are odd and at least three, the exponents modulo
the factors less one are positive, and the coefficient exists exactly if the factors have no common
divisor.
-/

namespace KeyStore.Rsa

theorem commonDivisor_fst (left right : Nat) (leftFactor rightFactor : Int) :
    (commonDivisor left right leftFactor rightFactor).1 = Nat.gcd left right := by
  induction left, right, leftFactor, rightFactor using commonDivisor.induct with
  | case1 left leftFactor rightFactor =>
      rw [commonDivisor, dif_pos rfl, Nat.gcd_zero_right]
  | case2 left right leftFactor rightFactor nonzero _ inductionHypothesis =>
      rw [commonDivisor, dif_neg nonzero, inductionHypothesis, Nat.gcd_comm left right,
        Nat.gcd_rec right left, Nat.gcd_comm]

/-- The factors stay those of two combinations: each is congruent to its number of the row. -/
theorem commonDivisor_congruence {number modulus : Int} {left right : Nat}
    {leftFactor rightFactor : Int} (leftCongruence : left ≡ leftFactor * number [ZMOD modulus])
    (rightCongruence : right ≡ rightFactor * number [ZMOD modulus]) :
    (commonDivisor left right leftFactor rightFactor).1 ≡
      (commonDivisor left right leftFactor rightFactor).2 * number [ZMOD modulus] := by
  induction left, right, leftFactor, rightFactor using commonDivisor.induct with
  | case1 left leftFactor rightFactor =>
      rw [commonDivisor, dif_pos rfl]
      exact leftCongruence
  | case2 left right leftFactor rightFactor nonzero _ inductionHypothesis =>
      rw [commonDivisor, dif_neg nonzero]
      refine inductionHypothesis rightCongruence ?_
      have remainder : ((left % right : Nat) : Int) =
          (left : Int) - Int.ofNat (left / right) * right := by
        have division := Nat.mod_add_div left right
        have asInt : ((left % right : Nat) : Int) + right * (left / right : Nat) = left := by
          exact_mod_cast division
        rw [← asInt, Int.ofNat_eq_natCast]
        ring
      have combination : (leftFactor - Int.ofNat (left / right) * rightFactor) * number =
          leftFactor * number - Int.ofNat (left / right) * (rightFactor * number) := by
        ring
      rw [remainder, combination]
      exact leftCongruence.sub (rightCongruence.mul_left _)

theorem inverse?_eq (number modulus : Nat) :
    inverse? number modulus =
      if (commonDivisor number modulus 1 0).1 = 1 then
        some ((commonDivisor number modulus 1 0).2 % Int.ofNat modulus).toNat
      else
        none :=
  rfl

theorem inverse?_eq_none_iff {number modulus : Nat} :
    inverse? number modulus = none ↔ ¬number.Coprime modulus := by
  rw [inverse?_eq, Nat.Coprime, ← commonDivisor_fst number modulus 1 0]
  split
  · next divisor => exact ⟨fun impossible => by contradiction, fun apart => absurd divisor apart⟩
  · next divisor => exact ⟨fun _ => divisor, fun _ => rfl⟩

/-- Numbers without a common divisor have an inverse, which is found below the modulus. -/
theorem exists_inverse?_eq {number modulus : Nat} (large : 1 < modulus)
    (coprime : number.Coprime modulus) :
    ∃ inverse, inverse? number modulus = some inverse ∧ inverse < modulus ∧
      inverse * number % modulus = 1 := by
  have divisor : (commonDivisor number modulus 1 0).1 = 1 := by
    rw [commonDivisor_fst]
    exact coprime
  have congruence : (1 : Int) ≡
      (commonDivisor number modulus 1 0).2 * number [ZMOD modulus] := by
    have left : (number : Int) ≡ 1 * number [ZMOD modulus] := by
      rw [Int.one_mul]
    have right : (modulus : Int) ≡ 0 * number [ZMOD modulus] := by
      rw [Int.zero_mul]
      exact Int.emod_self
    have found := commonDivisor_congruence left right
    rw [divisor] at found
    exact found
  have positive : (0 : Int) < modulus := by omega
  have residue : (((commonDivisor number modulus 1 0).2 % Int.ofNat modulus).toNat : Int) =
      (commonDivisor number modulus 1 0).2 % modulus :=
    Int.toNat_of_nonneg (Int.emod_nonneg _ positive.ne')
  refine ⟨((commonDivisor number modulus 1 0).2 % Int.ofNat modulus).toNat, ?_, ?_, ?_⟩
  · rw [inverse?_eq]
    exact if_pos divisor
  · have below := Int.emod_lt_of_pos (commonDivisor number modulus 1 0).2 positive
    omega
  · have product : ((((commonDivisor number modulus 1 0).2 % Int.ofNat modulus).toNat * number :
        Nat) : Int) ≡ (1 : Nat) [ZMOD modulus] := by
      rw [Nat.cast_mul, residue]
      exact ((Int.mod_modEq _ _).mul_right _).trans congruence.symm
    have natural := Int.natCast_modEq_iff.mp product
    rw [Nat.ModEq, Nat.mod_eq_of_lt large] at natural
    exact natural

/-- A factor of a product that leaves the remainder one is not divisible. -/
theorem mod_pos_of_mul_mod {left right modulus : Nat} (one : left * right % modulus = 1) :
    0 < left % modulus := by
  apply Nat.pos_of_ne_zero
  intro zero
  rw [Nat.mul_mod, zero, Nat.zero_mul, Nat.zero_mod] at one
  contradiction

namespace PrivateKey

theorem coefficient?_eq_none_iff {key : PrivateKey} :
    key.coefficient? = none ↔ ¬key.p.Coprime key.q := by
  rw [coefficient?, inverse?_eq_none_iff, Nat.coprime_comm]

/-- The coefficient of a key whose factors have no common divisor is the inverse of the second
factor modulo the first. -/
theorem exists_coefficient?_eq {key : PrivateKey} (coprime : key.p.Coprime key.q) :
    ∃ coefficient, key.coefficient? = some coefficient ∧ 1 ≤ coefficient ∧
      coefficient < key.p ∧ coefficient * key.q % key.p = 1 := by
  obtain ⟨coefficient, found, below, inverse⟩ :=
    exists_inverse?_eq key.isPrivatePart.1 coprime.symm
  refine ⟨coefficient, found, Nat.pos_of_ne_zero ?_, below, inverse⟩
  rintro rfl
  rw [Nat.zero_mul, Nat.zero_mod] at inverse
  contradiction

def factors (key : PrivateKey) : List Nat :=
  [key.p, key.q]

variable (key : PrivateKey)

theorem p_mem_factors : key.p ∈ key.factors :=
  List.mem_cons_self

theorem q_mem_factors : key.q ∈ key.factors :=
  List.mem_cons_of_mem _ List.mem_cons_self

theorem prod_factors : key.factors.prod = key.publicKey.modulus := by
  rw [factors, List.prod_cons, List.prod_singleton]
  exact key.isPrivatePart.2.2.1

variable {key} {factor : Nat}

theorem exponent_mul_mod_of_mem_factors (member : factor ∈ key.factors) :
    key.exponent * key.publicKey.exponent % (factor - 1) = 1 := by
  simp only [factors, List.mem_cons, List.not_mem_nil, or_false] at member
  rcases member with rfl | rfl
  · exact key.isPrivatePart.2.2.2.1
  · exact key.isPrivatePart.2.2.2.2

theorem odd_of_mem_factors (member : factor ∈ key.factors) : factor % 2 = 1 := by
  have divides : factor ∣ key.publicKey.modulus := by
    rw [← key.prod_factors]
    exact List.dvd_prod member
  have odd : Odd key.publicKey.modulus := Nat.odd_iff.mpr key.publicKey.isPublicPair.2.1
  exact Nat.odd_iff.mp (odd.of_dvd_nat divides)

/-- A factor is not one: congruent modulo zero is equal, and the public exponent is at least two. -/
theorem ne_one_of_mem_factors (member : factor ∈ key.factors) : factor ≠ 1 := by
  rintro rfl
  have product := exponent_mul_mod_of_mem_factors member
  rw [Nat.sub_self, Nat.mod_zero] at product
  have one : key.publicKey.exponent = 1 := Nat.eq_one_of_mul_eq_one_left product
  have large : 2 ≤ key.publicKey.exponent := key.publicKey.isPublicPair.2.2.2.1
  omega

/-- The bound follows from the parity of the modulus, the product and the congruences. -/
theorem three_le_of_mem_factors (member : factor ∈ key.factors) : 3 ≤ factor := by
  have odd := odd_of_mem_factors member
  have different := ne_one_of_mem_factors member
  omega

theorem one_lt_of_mem_factors (member : factor ∈ key.factors) : 1 < factor :=
  Nat.lt_of_succ_lt (three_le_of_mem_factors member)

/-- The exponent for a factor lies between one and the factor less two. -/
theorem exponent_mod_bounds (member : factor ∈ key.factors) :
    1 ≤ key.exponent % (factor - 1) ∧ key.exponent % (factor - 1) ≤ factor - 2 := by
  have positive := mod_pos_of_mul_mod (exponent_mul_mod_of_mem_factors member)
  have large := three_le_of_mem_factors member
  have below : key.exponent % (factor - 1) < factor - 1 := Nat.mod_lt _ (by omega)
  omega

theorem exponent_pos (key : PrivateKey) : 0 < key.exponent :=
  Nat.le_trans (exponent_mod_bounds key.p_mem_factors).1 (Nat.mod_le _ _)

end PrivateKey

theorem PublicKey.modulus_pos (key : PublicKey) : 0 < key.modulus :=
  Nat.zero_lt_of_lt key.isPublicPair.1

theorem PublicKey.exponent_pos (key : PublicKey) : 0 < key.exponent :=
  Nat.zero_lt_of_lt key.isPublicPair.2.2.2.1

end KeyStore.Rsa
