/-!
# The field of bytes

Bytes as polynomials over two elements modulo `x ^ 8 + x ^ 4 + x ^ 3 + x + 1`. Addition is the
exclusive or; this module adds multiplication and the inverse.
-/

namespace KeyStore.ByteField

def double (byte : UInt8) : UInt8 :=
  (byte <<< 1) ^^^ (if byte &&& 0x80 = 0 then 0 else 0x1b)

/-- The sum of the products of `left` with the lowest `count` bits of `right`. -/
def mulBits : (count : Nat) → (left right : UInt8) → UInt8
  | 0, _, _ => 0
  | count + 1, left, right =>
      (if right &&& 1 = 0 then 0 else left) ^^^ mulBits count (double left) (right >>> 1)

def mul (left right : UInt8) : UInt8 :=
  mulBits 8 left right

/-- The inverse of a byte, and zero for zero: its power with exponent 254, the product of seven
repeated squares. -/
def inverse (byte : UInt8) : UInt8 :=
  let square := fun factor => mul factor factor
  let power2 := square byte
  let power4 := square power2
  let power8 := square power4
  let power16 := square power8
  let power32 := square power16
  let power64 := square power32
  let power128 := square power64
  mul power2 (mul power4 (mul power8 (mul power16 (mul power32 (mul power64 power128)))))

end KeyStore.ByteField
