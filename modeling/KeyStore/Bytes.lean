/-!
# Byte strings

Byte strings are lists of bytes. This module reads them as big-endian numbers and writes numbers in
their shortest big-endian form, in which only zero starts with a zero byte.
-/

namespace KeyStore

abbrev Bytes := List UInt8

namespace Bytes

/-- The number that a byte string writes in base 256, most significant byte first. -/
def toNat (bytes : Bytes) : Nat :=
  bytes.foldl (fun number byte => number * 256 + byte.toNat) 0

/-- The shortest big-endian form of a number. Zero is one zero byte; no other form starts with
a zero byte. -/
def ofNat (number : Nat) : Bytes :=
  if number < 256 then
    [UInt8.ofNat number]
  else
    ofNat (number / 256) ++ [UInt8.ofNat (number % 256)]

/-- The big-endian form of a number in exactly `width` bytes, reduced modulo `256 ^ width`. -/
def ofNatWidth : (width : Nat) → Nat → Bytes
  | 0, _ => []
  | width + 1, number => ofNatWidth width (number / 256) ++ [UInt8.ofNat (number % 256)]

def xor (left right : Bytes) : Bytes :=
  List.zipWith (· ^^^ ·) left right

end Bytes

/-- The number of binary digits of `number`; zero has none. -/
def bitLength (number : Nat) : Nat :=
  if number = 0 then 0 else number.log2 + 1

end KeyStore
