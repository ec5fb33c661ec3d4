import KeyStore.Cipher.ByteField
import Mathlib.Algebra.Group.Basic

/-!
# Arithmetic in the field of bytes

Multiplication of bytes is additive on both sides, commutative and associative. Everything is
proved from the powers of `x`: a statement that holds of zero and one, and passes from a byte to its
double and from two bytes to their sum, holds of every byte. Squaring is additive as well, eight
squarings are the identity, and therefore taking the inverse twice gives a byte back.
-/

namespace KeyStore.ByteField

/-- The eight powers of `x` that are single bits. -/
def bits : List UInt8 := [0x01, 0x02, 0x04, 0x08, 0x10, 0x20, 0x40, 0x80]

theorem sum_and_bits (byte : UInt8) :
    bits.foldr (fun bit sum => (byte &&& bit) ^^^ sum) 0 = byte := by
  have all : ∀ index : Fin UInt8.size,
      bits.foldr (fun bit sum => (UInt8.ofFin index &&& bit) ^^^ sum) 0 = UInt8.ofFin index := by
    decide +kernel
  exact all byte.toFin

theorem bits_eq : bits = (List.range 8).map fun place => .ofBitVec (.twoPow 8 place) := by
  decide

theorem and_bit (byte : UInt8) : ∀ bit ∈ bits, byte &&& bit = 0 ∨ byte &&& bit = bit := by
  intro bit known
  rw [bits_eq] at known
  obtain ⟨place, _, rfl⟩ := List.mem_map.mp known
  have chosen : (byte &&& .ofBitVec (.twoPow 8 place)).toBitVec =
      if byte.toBitVec.getLsbD place then .twoPow 8 place else 0#8 := by
    rw [UInt8.toBitVec_and, BitVec.and_twoPow]
  split at chosen
  · exact .inr (UInt8.toBitVec_inj.mp chosen)
  · exact .inl (UInt8.toBitVec_inj.mp chosen)

/-- Every byte is a sum of single bits. -/
theorem bits_induction {property : UInt8 → Prop} (zero : property 0)
    (single : ∀ bit ∈ bits, property bit)
    (sum : ∀ left right, property left → property right → property (left ^^^ right))
    (byte : UInt8) : property byte := by
  have partialSum : ∀ chosen : List UInt8, (∀ bit ∈ chosen, bit ∈ bits) →
      property (chosen.foldr (fun bit sum => (byte &&& bit) ^^^ sum) 0) := by
    intro chosen known
    induction chosen with
    | nil =>
        exact zero
    | cons bit rest inductionHypothesis =>
        have bitKnown := known bit List.mem_cons_self
        have restHolds :=
          inductionHypothesis fun other member => known other (List.mem_cons_of_mem bit member)
        rw [List.foldr_cons]
        apply sum _ _ _ restHolds
        rcases and_bit byte bit bitKnown with absent | present
        · rwa [absent]
        · rw [present]
          exact single bit bitKnown
  have whole := partialSum bits fun _ member => member
  rwa [sum_and_bits] at whole

/-- Every byte arises from one by doubling and adding. -/
theorem double_induction {property : UInt8 → Prop} (zero : property 0) (one : property 1)
    (twice : ∀ byte, property byte → property (double byte))
    (sum : ∀ left right, property left → property right → property (left ^^^ right))
    (byte : UInt8) : property byte := by
  have two : property 0x02 := twice 0x01 one
  have four : property 0x04 := twice 0x02 two
  have eight : property 0x08 := twice 0x04 four
  have sixteen : property 0x10 := twice 0x08 eight
  have thirtyTwo : property 0x20 := twice 0x10 sixteen
  have sixtyFour : property 0x40 := twice 0x20 thirtyTwo
  have last : property 0x80 := twice 0x40 sixtyFour
  apply bits_induction zero _ sum byte
  simp only [bits, List.mem_cons, List.not_mem_nil, or_false]
  rintro bit (rfl | rfl | rfl | rfl | rfl | rfl | rfl | rfl) <;> assumption

theorem xor_left_comm (a b c : UInt8) : a ^^^ (b ^^^ c) = b ^^^ (a ^^^ c) := by
  rw [← UInt8.xor_assoc, UInt8.xor_comm a b, UInt8.xor_assoc]

theorem xor_xor_xor_comm (a b c d : UInt8) : (a ^^^ b) ^^^ (c ^^^ d) = (a ^^^ c) ^^^ (b ^^^ d) := by
  rw [UInt8.xor_assoc, xor_left_comm b c d, ← UInt8.xor_assoc]

theorem xor_and (left right mask : UInt8) :
    (left ^^^ right) &&& mask = (left &&& mask) ^^^ (right &&& mask) := by
  apply UInt8.toNat_inj.mp
  simp only [UInt8.toNat_and, UInt8.toNat_xor, Nat.and_xor_distrib_right]

/-- What a single bit of a byte chooses is additive in the byte. -/
theorem select_xor (chosen left right bit : UInt8) (known : bit ∈ bits) :
    (if (left ^^^ right) &&& bit = 0 then 0 else chosen) =
      (if left &&& bit = 0 then 0 else chosen) ^^^ (if right &&& bit = 0 then 0 else chosen) := by
  have nonzero : bit ≠ 0 := by
    rintro rfl
    exact absurd known (by decide)
  rw [xor_and]
  rcases and_bit left bit known with leftAbsent | leftPresent
  · rw [leftAbsent, UInt8.zero_xor, if_pos rfl, UInt8.zero_xor]
  · rcases and_bit right bit known with rightAbsent | rightPresent
    · rw [rightAbsent, UInt8.xor_zero, if_pos rfl, UInt8.xor_zero]
    · rw [leftPresent, rightPresent, UInt8.xor_self, if_pos rfl, if_neg nonzero, UInt8.xor_self]

theorem double_zero : double 0 = 0 := by
  decide

theorem double_xor (left right : UInt8) :
    double (left ^^^ right) = double left ^^^ double right := by
  rw [double, select_xor 0x1b left right 0x80 (by decide), UInt8.shiftLeft_xor, xor_xor_xor_comm]
  rfl

theorem mulBits_xor_left (count : Nat) (left right factor : UInt8) :
    mulBits count (left ^^^ right) factor =
      mulBits count left factor ^^^ mulBits count right factor := by
  induction count generalizing left right factor with
  | zero =>
      exact UInt8.xor_self.symm
  | succ count inductionHypothesis =>
      rw [mulBits, mulBits, mulBits, double_xor, inductionHypothesis, xor_xor_xor_comm]
      split
      · rw [UInt8.xor_zero]
      · rfl

theorem mulBits_xor_right (count : Nat) (factor left right : UInt8) :
    mulBits count factor (left ^^^ right) =
      mulBits count factor left ^^^ mulBits count factor right := by
  induction count generalizing factor left right with
  | zero =>
      exact UInt8.xor_self.symm
  | succ count inductionHypothesis =>
      rw [mulBits, mulBits, mulBits, select_xor factor left right 1 (by decide),
        UInt8.shiftRight_xor, inductionHypothesis, xor_xor_xor_comm]

theorem mulBits_double (count : Nat) (left right : UInt8) :
    mulBits count (double left) right = double (mulBits count left right) := by
  induction count generalizing left right with
  | zero =>
      exact double_zero.symm
  | succ count inductionHypothesis =>
      rw [mulBits, mulBits, double_xor, inductionHypothesis]
      split
      · rw [double_zero]
      · rfl

theorem xor_mul (left right factor : UInt8) :
    mul (left ^^^ right) factor = mul left factor ^^^ mul right factor :=
  mulBits_xor_left 8 left right factor

theorem mul_xor (factor left right : UInt8) :
    mul factor (left ^^^ right) = mul factor left ^^^ mul factor right :=
  mulBits_xor_right 8 factor left right

theorem double_mul (left right : UInt8) : mul (double left) right = double (mul left right) :=
  mulBits_double 8 left right

theorem mul_zero (byte : UInt8) : mul byte 0 = 0 := by
  have twice := mul_xor byte 0 0
  rwa [UInt8.xor_self, UInt8.xor_self] at twice

theorem zero_mul (byte : UInt8) : mul 0 byte = 0 := by
  have twice := xor_mul 0 0 byte
  rwa [UInt8.xor_self, UInt8.xor_self] at twice

theorem one_mul (byte : UInt8) : mul 1 byte = byte := by
  induction byte using bits_induction with
  | zero => exact mul_zero 1
  | single bit known =>
      revert bit
      decide +kernel
  | sum left right leftHolds rightHolds =>
      rw [mul_xor, leftHolds, rightHolds]

theorem mul_one (byte : UInt8) : mul byte 1 = byte := by
  induction byte using double_induction with
  | zero => exact zero_mul 1
  | one => exact one_mul 1
  | twice byte inductionHypothesis =>
      rw [double_mul, inductionHypothesis]
  | sum left right leftHolds rightHolds =>
      rw [xor_mul, leftHolds, rightHolds]

theorem mul_double (left right : UInt8) : mul left (double right) = double (mul left right) := by
  induction left using double_induction with
  | zero =>
      rw [zero_mul, zero_mul, double_zero]
  | one =>
      rw [one_mul, one_mul]
  | twice byte inductionHypothesis =>
      rw [double_mul, double_mul, inductionHypothesis]
  | sum first second firstHolds secondHolds =>
      rw [xor_mul, xor_mul, double_xor, firstHolds, secondHolds]

theorem mul_comm (left right : UInt8) : mul left right = mul right left := by
  induction left using double_induction with
  | zero =>
      rw [zero_mul, mul_zero]
  | one =>
      rw [one_mul, mul_one]
  | twice byte inductionHypothesis =>
      rw [double_mul, mul_double, inductionHypothesis]
  | sum first second firstHolds secondHolds =>
      rw [xor_mul, mul_xor, firstHolds, secondHolds]

theorem mul_assoc (a b c : UInt8) : mul (mul a b) c = mul a (mul b c) := by
  induction c using double_induction with
  | zero =>
      rw [mul_zero, mul_zero, mul_zero]
  | one =>
      rw [mul_one, mul_one]
  | twice byte inductionHypothesis =>
      rw [mul_double, mul_double, mul_double, inductionHypothesis]
  | sum first second firstHolds secondHolds =>
      rw [mul_xor, mul_xor, mul_xor, firstHolds, secondHolds]

/-- Bytes under multiplication, so that powers can be written. -/
@[ext] structure Element where
  byte : UInt8

instance : CommMonoid Element where
  mul left right := ⟨mul left.byte right.byte⟩
  one := ⟨1⟩
  mul_assoc a b c := Element.ext (mul_assoc a.byte b.byte c.byte)
  one_mul element := Element.ext (one_mul element.byte)
  mul_one element := Element.ext (mul_one element.byte)
  mul_comm left right := Element.ext (mul_comm left.byte right.byte)

theorem mul_eq (left right : Element) : mul left.byte right.byte = (left * right).byte :=
  rfl

theorem inverse_eq (element : Element) : inverse element.byte = (element ^ 254).byte := by
  have square (power : Element) : power * power = power ^ 2 := (pow_two power).symm
  have nested (inner outer : Nat) : (element ^ inner) ^ outer = element ^ (inner * outer) :=
    (pow_mul element inner outer).symm
  have joined (left right : Nat) : element ^ left * element ^ right = element ^ (left + right) :=
    (pow_add element left right).symm
  simp only [inverse, mul_eq, square, nested, joined]

def square (byte : UInt8) : UInt8 := mul byte byte

/-- Squaring is additive: the mixed products cancel. -/
theorem square_xor (left right : UInt8) :
    square (left ^^^ right) = square left ^^^ square right := by
  rw [square, xor_mul, mul_xor, mul_xor, mul_comm right left, UInt8.xor_assoc,
    ← UInt8.xor_assoc (mul left right), UInt8.xor_self, UInt8.zero_xor]
  rfl

theorem repeat_square_xor (count : Nat) (left right : UInt8) :
    Nat.repeat square count (left ^^^ right) =
      Nat.repeat square count left ^^^ Nat.repeat square count right := by
  induction count with
  | zero =>
      rfl
  | succ count inductionHypothesis =>
      rw [Nat.repeat, inductionHypothesis, square_xor]
      rfl

theorem repeat_square_eight (byte : UInt8) : Nat.repeat square 8 byte = byte := by
  induction byte using bits_induction with
  | zero => decide
  | single bit known =>
      have all : ∀ bit ∈ bits, Nat.repeat square 8 bit = bit := by decide +kernel
      exact all bit known
  | sum left right leftHolds rightHolds =>
      rw [repeat_square_xor, leftHolds, rightHolds]

theorem pow_two_pow (element : Element) (count : Nat) :
    (element ^ Nat.pow 2 count).byte = Nat.repeat square count element.byte := by
  induction count with
  | zero =>
      show (element ^ 1).byte = element.byte
      rw [pow_one]
  | succ count inductionHypothesis =>
      show (element ^ (Nat.pow 2 count * 2)).byte = _
      rw [pow_mul, pow_two, ← mul_eq, inductionHypothesis]
      rfl

theorem pow_256 (element : Element) : element ^ 256 = element :=
  Element.ext ((pow_two_pow element 8).trans (repeat_square_eight element.byte))

/-- The inverse of the inverse is the byte itself, also for zero. -/
theorem inverse_inverse (byte : UInt8) : inverse (inverse byte) = byte := by
  have exponent : 254 * 254 = 256 * 252 + 4 := rfl
  calc
    inverse (inverse byte) = ((Element.mk byte ^ 254) ^ 254).byte := by
      rw [← inverse_eq, ← inverse_eq]
    _ = ((Element.mk byte ^ 256) ^ 252 * Element.mk byte ^ 4).byte := by
      rw [← pow_mul, exponent, pow_add, pow_mul]
    _ = (Element.mk byte ^ 252 * Element.mk byte ^ 4).byte := by
      rw [pow_256]
    _ = (Element.mk byte ^ 256).byte := by
      rw [← pow_add]
    _ = byte := by
      rw [pow_256]

end KeyStore.ByteField
