import KeyStore.Cipher.Aes
import KeyStore.Proofs.Cipher.ByteField

/-!
# Decryption of a block undoes encryption

Each step of a round has an inverse: the substitution by the inverse of a byte and of its affine
image, the shifting of rows by a permutation, the mixing of columns by the inverse matrix, and the
addition of a key by itself. The rounds are undone in reverse, and both directions are proved for
every list of round keys.
-/

namespace KeyStore.Aes

open ByteField

theorem subByte_eq (byte : UInt8) : subByte byte = affine (inverse byte) :=
  Vector.getElem_ofFn byte.toFin.isLt

theorem invSubByte_eq (byte : UInt8) : invSubByte byte = inverse (inverseAffine byte) :=
  Vector.getElem_ofFn byte.toFin.isLt

theorem inverseAffine_affine (byte : UInt8) : inverseAffine (affine byte) = byte := by
  have all : ∀ index : Fin UInt8.size,
      inverseAffine (affine (UInt8.ofFin index)) = UInt8.ofFin index := by
    decide +kernel
  exact all byte.toFin

theorem affine_inverseAffine (byte : UInt8) : affine (inverseAffine byte) = byte := by
  have all : ∀ index : Fin UInt8.size,
      affine (inverseAffine (UInt8.ofFin index)) = UInt8.ofFin index := by
    decide +kernel
  exact all byte.toFin

@[simp]
theorem invSubByte_subByte (byte : UInt8) : invSubByte (subByte byte) = byte := by
  rw [subByte_eq, invSubByte_eq, inverseAffine_affine, inverse_inverse]

@[simp]
theorem subByte_invSubByte (byte : UInt8) : subByte (invSubByte byte) = byte := by
  rw [subByte_eq, invSubByte_eq, inverse_inverse, affine_inverseAffine]

theorem invSubBytes_subBytes (block : Block) : invSubBytes (subBytes block) = block := by
  simp [invSubBytes, subBytes, Block.mapColumns, Column.map]

theorem subBytes_invSubBytes (block : Block) : subBytes (invSubBytes block) = block := by
  simp [invSubBytes, subBytes, Block.mapColumns, Column.map]

theorem invShiftRows_shiftRows (block : Block) : invShiftRows (shiftRows block) = block :=
  rfl

theorem shiftRows_invShiftRows (block : Block) : shiftRows (invShiftRows block) = block :=
  rfl

/-- The first row of a product of two such matrices, as what it makes of the bytes of a column: it
is the first row of the unit matrix. -/
structure CirculantInverse (c0 c1 c2 c3 d0 d1 d2 d3 : UInt8) : Prop where
  diagonal : mul c0 d0 ^^^ mul c3 d1 ^^^ mul c2 d2 ^^^ mul c1 d3 = 1
  second : mul c1 d0 ^^^ mul c0 d1 ^^^ mul c3 d2 ^^^ mul c2 d3 = 0
  third : mul c2 d0 ^^^ mul c1 d1 ^^^ mul c0 d2 ^^^ mul c3 d3 = 0
  fourth : mul c3 d0 ^^^ mul c2 d1 ^^^ mul c1 d2 ^^^ mul c0 d3 = 0

/-- Summing four sums of four by the first, second, third and fourth summands. -/
theorem xor_transpose (a0 a1 a2 a3 b0 b1 b2 b3 c0 c1 c2 c3 d0 d1 d2 d3 : UInt8) :
    (a0 ^^^ a1 ^^^ a2 ^^^ a3) ^^^ (b0 ^^^ b1 ^^^ b2 ^^^ b3) ^^^ (c0 ^^^ c1 ^^^ c2 ^^^ c3) ^^^
        (d0 ^^^ d1 ^^^ d2 ^^^ d3) =
      (a0 ^^^ b0 ^^^ c0 ^^^ d0) ^^^ (a1 ^^^ b1 ^^^ c1 ^^^ d1) ^^^ (a2 ^^^ b2 ^^^ c2 ^^^ d2) ^^^
        (a3 ^^^ b3 ^^^ c3 ^^^ d3) := by
  ac_rfl

/-- The product of one row of a matrix with the product of another matrix and a column, sorted by
the bytes of the column. -/
theorem row_product (r0 r1 r2 r3 c0 c1 c2 c3 d0 d1 d2 d3 : UInt8) :
    mul (mul r0 c0 ^^^ mul r1 c1 ^^^ mul r2 c2 ^^^ mul r3 c3) d0 ^^^
        mul (mul r0 c3 ^^^ mul r1 c0 ^^^ mul r2 c1 ^^^ mul r3 c2) d1 ^^^
        mul (mul r0 c2 ^^^ mul r1 c3 ^^^ mul r2 c0 ^^^ mul r3 c1) d2 ^^^
        mul (mul r0 c1 ^^^ mul r1 c2 ^^^ mul r2 c3 ^^^ mul r3 c0) d3 =
      mul r0 (mul c0 d0 ^^^ mul c3 d1 ^^^ mul c2 d2 ^^^ mul c1 d3) ^^^
        mul r1 (mul c1 d0 ^^^ mul c0 d1 ^^^ mul c3 d2 ^^^ mul c2 d3) ^^^
        mul r2 (mul c2 d0 ^^^ mul c1 d1 ^^^ mul c0 d2 ^^^ mul c3 d3) ^^^
        mul r3 (mul c3 d0 ^^^ mul c2 d1 ^^^ mul c1 d2 ^^^ mul c0 d3) := by
  simp only [xor_mul, mul_xor, mul_assoc]
  exact xor_transpose _ _ _ _ _ _ _ _ _ _ _ _ _ _ _ _

/-- The first row comes back when the first row of the product of both matrices is that of the unit
matrix. -/
theorem row0_circulant_circulant {c0 c1 c2 c3 d0 d1 d2 d3 : UInt8}
    (inverse : CirculantInverse c0 c1 c2 c3 d0 d1 d2 d3) (column : Column) :
    (circulant d0 d1 d2 d3 (circulant c0 c1 c2 c3 column)).row0 = column.row0 := by
  calc
    (circulant d0 d1 d2 d3 (circulant c0 c1 c2 c3 column)).row0 =
        mul column.row0 (mul c0 d0 ^^^ mul c3 d1 ^^^ mul c2 d2 ^^^ mul c1 d3) ^^^
          mul column.row1 (mul c1 d0 ^^^ mul c0 d1 ^^^ mul c3 d2 ^^^ mul c2 d3) ^^^
          mul column.row2 (mul c2 d0 ^^^ mul c1 d1 ^^^ mul c0 d2 ^^^ mul c3 d3) ^^^
          mul column.row3 (mul c3 d0 ^^^ mul c2 d1 ^^^ mul c1 d2 ^^^ mul c0 d3) :=
      row_product _ _ _ _ _ _ _ _ _ _ _ _
    _ = column.row0 := by
      rw [inverse.diagonal, inverse.second, inverse.third, inverse.fourth, mul_one, mul_zero,
        mul_zero, mul_zero, UInt8.xor_zero, UInt8.xor_zero, UInt8.xor_zero]

/-- A column moved up by one row, the first row going to the end. -/
def Column.rotate (column : Column) : Column :=
  ⟨column.row1, column.row2, column.row3, column.row0⟩

/-- Each row of such a matrix is the one above rotated, so the matrix commutes with rotation. -/
theorem circulant_rotate (c0 c1 c2 c3 : UInt8) (column : Column) :
    circulant c0 c1 c2 c3 column.rotate = (circulant c0 c1 c2 c3 column).rotate := by
  ext <;> simp only [circulant, Column.rotate] <;> ac_rfl

theorem circulant_circulant {c0 c1 c2 c3 d0 d1 d2 d3 : UInt8}
    (inverse : CirculantInverse c0 c1 c2 c3 d0 d1 d2 d3) (column : Column) :
    circulant d0 d1 d2 d3 (circulant c0 c1 c2 c3 column) = column := by
  have first := row0_circulant_circulant inverse column
  have second := row0_circulant_circulant inverse column.rotate
  have third := row0_circulant_circulant inverse column.rotate.rotate
  have fourth := row0_circulant_circulant inverse column.rotate.rotate.rotate
  simp only [circulant_rotate] at second third fourth
  exact Column.ext first second third fourth

theorem mix_inverse : CirculantInverse 2 3 1 1 14 11 13 9 := by
  constructor <;> decide +kernel

theorem invMix_inverse : CirculantInverse 14 11 13 9 2 3 1 1 := by
  constructor <;> decide +kernel

theorem invMixColumns_mixColumns (block : Block) : invMixColumns (mixColumns block) = block := by
  simp only [invMixColumns, mixColumns, Block.mapColumns, circulant_circulant mix_inverse]

theorem mixColumns_invMixColumns (block : Block) : mixColumns (invMixColumns block) = block := by
  simp only [invMixColumns, mixColumns, Block.mapColumns, circulant_circulant invMix_inverse]

theorem Column.xor_xor (column key : Column) : (column.xor key).xor key = column := by
  simp only [Column.xor, UInt8.xor_assoc, UInt8.xor_self, UInt8.xor_zero]

@[simp]
theorem Block.xor_xor (block key : Block) : (block.xor key).xor key = block := by
  simp [Block.xor, Column.xor_xor]

theorem invRound_round (block key : Block) : invRound key (round block key) = block := by
  rw [invRound, round, Block.xor_xor, invMixColumns_mixColumns, invShiftRows_shiftRows,
    invSubBytes_subBytes]

theorem round_invRound (key block : Block) : round (invRound key block) key = block := by
  rw [invRound, round, subBytes_invSubBytes, shiftRows_invShiftRows, mixColumns_invMixColumns,
    Block.xor_xor]

theorem foldr_invRound_foldl_round (keys : List Block) (block : Block) :
    keys.foldr invRound (keys.foldl round block) = block := by
  induction keys generalizing block with
  | nil =>
      rfl
  | cons key rest inductionHypothesis =>
      rw [List.foldl_cons, List.foldr_cons, inductionHypothesis, invRound_round]

theorem foldl_round_foldr_invRound (keys : List Block) (block : Block) :
    keys.foldl round (keys.foldr invRound block) = block := by
  induction keys with
  | nil =>
      rfl
  | cons key rest inductionHypothesis =>
      rw [List.foldr_cons, List.foldl_cons, round_invRound, inductionHypothesis]

/-- Decryption undoes encryption, for every list of round keys. -/
theorem decryptBlock_encryptBlock (keys : RoundKeys) (block : Block) :
    decryptBlock keys (encryptBlock keys block) = block := by
  rw [decryptBlock, encryptBlock, Block.xor_xor, invShiftRows_shiftRows, invSubBytes_subBytes,
    foldr_invRound_foldl_round, Block.xor_xor]

theorem encryptBlock_decryptBlock (keys : RoundKeys) (block : Block) :
    encryptBlock keys (decryptBlock keys block) = block := by
  rw [decryptBlock, encryptBlock, Block.xor_xor, foldl_round_foldr_invRound, subBytes_invSubBytes,
    shiftRows_invShiftRows, Block.xor_xor]

-- The published vector of the cipher: a key of the bytes 0 to 15.
example :
    encryptBlock (.ofKey ⟨⟨0, 1, 2, 3⟩, ⟨4, 5, 6, 7⟩, ⟨8, 9, 10, 11⟩, ⟨12, 13, 14, 15⟩⟩)
        ⟨⟨0x00, 0x11, 0x22, 0x33⟩, ⟨0x44, 0x55, 0x66, 0x77⟩, ⟨0x88, 0x99, 0xaa, 0xbb⟩,
          ⟨0xcc, 0xdd, 0xee, 0xff⟩⟩ =
      ⟨⟨0x69, 0xc4, 0xe0, 0xd8⟩, ⟨0x6a, 0x7b, 0x04, 0x30⟩, ⟨0xd8, 0xcd, 0xb7, 0x80⟩,
        ⟨0x70, 0xb4, 0xc5, 0x5a⟩⟩ := by
  -- The table is too slow to look things up in, so the bytes it holds are worked out.
  have substitute : subByte = fun byte => affine (inverse byte) := funext subByte_eq
  simp only [encryptBlock, RoundKeys.ofKey, roundConstants, expandKey, nextRoundKey, List.foldl,
    round, subBytes, substitute]
  cbv

end KeyStore.Aes
