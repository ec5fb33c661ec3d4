import KeyStore.Bytes
import KeyStore.Cipher.ByteField

/-!
# AES-128

The Advanced Encryption Standard with a key of 128 bits, in both directions. A block is a square of
sixteen bytes, held as four columns. Encryption adds the first round key, then runs nine full
rounds and a last one without the mixing of columns; decryption undoes these steps in reverse.
-/

namespace KeyStore.Aes

def blockLength : Nat := 16

/-- Four bytes of a block, one from each row. -/
@[ext] structure Column where
  row0 : UInt8
  row1 : UInt8
  row2 : UInt8
  row3 : UInt8
deriving DecidableEq, Repr

def Column.xor (left right : Column) : Column :=
  ⟨left.row0 ^^^ right.row0, left.row1 ^^^ right.row1, left.row2 ^^^ right.row2,
    left.row3 ^^^ right.row3⟩

def Column.map (change : UInt8 → UInt8) (column : Column) : Column :=
  ⟨change column.row0, change column.row1, change column.row2, change column.row3⟩

/-- Sixteen bytes as four columns, the unit of the cipher. -/
@[ext] structure Block where
  column0 : Column
  column1 : Column
  column2 : Column
  column3 : Column
deriving DecidableEq, Repr

def Block.xor (left right : Block) : Block :=
  ⟨left.column0.xor right.column0, left.column1.xor right.column1,
    left.column2.xor right.column2, left.column3.xor right.column3⟩

def Block.mapColumns (change : Column → Column) (block : Block) : Block :=
  ⟨change block.column0, change block.column1, change block.column2, change block.column3⟩

def Column.bytes (column : Column) : Bytes :=
  [column.row0, column.row1, column.row2, column.row3]

def Block.bytes (block : Block) : Bytes :=
  block.column0.bytes ++ block.column1.bytes ++ block.column2.bytes ++ block.column3.bytes

def Block.ofBytes? : Bytes → Option Block
  | [b0, b1, b2, b3, b4, b5, b6, b7, b8, b9, b10, b11, b12, b13, b14, b15] =>
      some ⟨⟨b0, b1, b2, b3⟩, ⟨b4, b5, b6, b7⟩, ⟨b8, b9, b10, b11⟩, ⟨b12, b13, b14, b15⟩⟩
  | _ => none

/-- The bits of a byte moved to the left by `count`, and round to the right end. -/
def rotateByte (byte : UInt8) (count : UInt8) : UInt8 :=
  (byte <<< count) ||| (byte >>> (8 - count))

def affine (byte : UInt8) : UInt8 :=
  byte ^^^ rotateByte byte 1 ^^^ rotateByte byte 2 ^^^ rotateByte byte 3 ^^^ rotateByte byte 4 ^^^
    0x63

def inverseAffine (byte : UInt8) : UInt8 :=
  rotateByte byte 1 ^^^ rotateByte byte 3 ^^^ rotateByte byte 6 ^^^ 0x05

/-- The substitute of every byte: the affine image of its inverse. -/
def substitutes : Vector UInt8 256 :=
  Vector.ofFn fun index => affine (ByteField.inverse (UInt8.ofFin index))

def inverseSubstitutes : Vector UInt8 256 :=
  Vector.ofFn fun index => ByteField.inverse (inverseAffine (UInt8.ofFin index))

def subByte (byte : UInt8) : UInt8 :=
  substitutes.get byte.toFin

def invSubByte (byte : UInt8) : UInt8 :=
  inverseSubstitutes.get byte.toFin

def subBytes (block : Block) : Block :=
  block.mapColumns (Column.map subByte)

def invSubBytes (block : Block) : Block :=
  block.mapColumns (Column.map invSubByte)

/-- A column that takes its bytes from four columns, one row from each. -/
def diagonal (first second third fourth : Column) : Column :=
  ⟨first.row0, second.row1, third.row2, fourth.row3⟩

def shiftRows (block : Block) : Block :=
  ⟨diagonal block.column0 block.column1 block.column2 block.column3,
    diagonal block.column1 block.column2 block.column3 block.column0,
    diagonal block.column2 block.column3 block.column0 block.column1,
    diagonal block.column3 block.column0 block.column1 block.column2⟩

def invShiftRows (block : Block) : Block :=
  ⟨diagonal block.column0 block.column3 block.column2 block.column1,
    diagonal block.column1 block.column0 block.column3 block.column2,
    diagonal block.column2 block.column1 block.column0 block.column3,
    diagonal block.column3 block.column2 block.column1 block.column0⟩

/-- The column whose rows are the products of the matrix with first row `c0 c1 c2 c3`, each further
row being the one above rotated to the right by one. -/
def circulant (c0 c1 c2 c3 : UInt8) (column : Column) : Column :=
  let dot := fun d0 d1 d2 d3 =>
    ByteField.mul column.row0 d0 ^^^ ByteField.mul column.row1 d1 ^^^
      ByteField.mul column.row2 d2 ^^^ ByteField.mul column.row3 d3
  ⟨dot c0 c1 c2 c3, dot c3 c0 c1 c2, dot c2 c3 c0 c1, dot c1 c2 c3 c0⟩

def mixColumns (block : Block) : Block :=
  block.mapColumns (circulant 2 3 1 1)

def invMixColumns (block : Block) : Block :=
  block.mapColumns (circulant 14 11 13 9)

def roundConstants : List UInt8 :=
  [0x01, 0x02, 0x04, 0x08, 0x10, 0x20, 0x40, 0x80, 0x1b]

def lastConstant : UInt8 := 0x36

def nextRoundKey (key : Block) (constant : UInt8) : Block :=
  let rotated : Column :=
    ⟨key.column3.row1, key.column3.row2, key.column3.row3, key.column3.row0⟩
  let column0 := (key.column0.xor (rotated.map subByte)).xor ⟨constant, 0, 0, 0⟩
  let column1 := key.column1.xor column0
  let column2 := key.column2.xor column1
  let column3 := key.column3.xor column2
  ⟨column0, column1, column2, column3⟩

structure RoundKeys where
  first : Block
  middle : List Block
  last : Block

def expandKey (key : Block) : List UInt8 → List Block
  | [] => []
  | constant :: rest =>
      let next := nextRoundKey key constant
      next :: expandKey next rest

def RoundKeys.ofKey (key : Block) : RoundKeys :=
  let middle := expandKey key roundConstants
  { first := key
    middle := middle
    last := nextRoundKey (middle.getLastD key) lastConstant }

def round (block key : Block) : Block :=
  (mixColumns (shiftRows (subBytes block))).xor key

def invRound (key block : Block) : Block :=
  invSubBytes (invShiftRows (invMixColumns (block.xor key)))

def encryptBlock (keys : RoundKeys) (block : Block) : Block :=
  (shiftRows (subBytes (keys.middle.foldl round (block.xor keys.first)))).xor keys.last

def decryptBlock (keys : RoundKeys) (block : Block) : Block :=
  (keys.middle.foldr invRound (invSubBytes (invShiftRows (block.xor keys.last)))).xor keys.first

end KeyStore.Aes
