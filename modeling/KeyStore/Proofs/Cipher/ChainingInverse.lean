import KeyStore.Cipher.Chaining
import KeyStore.Proofs.Cipher.AesInverse

/-!
# Decryption of a text undoes encryption

A text of whole blocks is the bytes of exactly one list of blocks. The chain over this list is
undone block by block, in both directions, so a text is decrypted to exactly the text whose
encryption it is. A refusal names the lengths that are at fault, key and vector first.
-/

namespace KeyStore

namespace Aes.Block

@[simp]
theorem length_bytes (block : Block) : block.bytes.length = blockLength :=
  rfl

@[simp]
theorem ofBytes?_bytes (block : Block) : ofBytes? block.bytes = some block :=
  rfl

theorem bytes_of_ofBytes? {bytes : Bytes} {block : Block} (found : ofBytes? bytes = some block) :
    block.bytes = bytes := by
  unfold ofBytes? at found
  split at found
  · injection found with equality
    subst equality
    rfl
  · contradiction

theorem exists_bytes_eq {bytes : Bytes} (length : bytes.length = blockLength) :
    ∃ block : Block, block.bytes = bytes := by
  match bytes, length with
  | [b0, b1, b2, b3, b4, b5, b6, b7, b8, b9, b10, b11, b12, b13, b14, b15], _ =>
      exact ⟨⟨⟨b0, b1, b2, b3⟩, ⟨b4, b5, b6, b7⟩, ⟨b8, b9, b10, b11⟩, ⟨b12, b13, b14, b15⟩⟩, rfl⟩

end Aes.Block

namespace Chaining

open Aes

theorem length_blockBytes (blocks : List Block) :
    (blockBytes blocks).length = blockLength * blocks.length := by
  induction blocks with
  | nil =>
      rfl
  | cons block rest inductionHypothesis =>
      rw [blockBytes, List.flatMap_cons, List.length_append, ← blockBytes, inductionHypothesis,
        Block.length_bytes, List.length_cons, Nat.mul_succ, Nat.add_comm]

theorem takeBlocks?_blockBytes (blocks : List Block) :
    takeBlocks? blocks.length (blockBytes blocks) = some blocks := by
  induction blocks with
  | nil =>
      rfl
  | cons block rest inductionHypothesis =>
      have start : (block.bytes ++ blockBytes rest).take blockLength = block.bytes :=
        List.take_left' (Block.length_bytes block)
      have others : (block.bytes ++ blockBytes rest).drop blockLength = blockBytes rest :=
        List.drop_left' (Block.length_bytes block)
      change takeBlocks? (rest.length + 1) (block.bytes ++ blockBytes rest) = some (block :: rest)
      rw [takeBlocks?, start, others, inductionHypothesis, Block.ofBytes?_bytes]
      rfl

theorem exists_blockBytes_eq (count : Nat) {bytes : Bytes}
    (length : bytes.length = blockLength * count) :
    ∃ blocks : List Block, blockBytes blocks = bytes := by
  induction count generalizing bytes with
  | zero =>
      rw [List.length_eq_zero_iff.mp length]
      exact ⟨[], rfl⟩
  | succ count inductionHypothesis =>
      have startLength : (bytes.take blockLength).length = blockLength := by
        rw [List.length_take, length, Nat.mul_succ]
        omega
      have otherLength : (bytes.drop blockLength).length = blockLength * count := by
        rw [List.length_drop, length, Nat.mul_succ]
        omega
      obtain ⟨block, start⟩ := Block.exists_bytes_eq startLength
      obtain ⟨rest, others⟩ := inductionHypothesis otherLength
      refine ⟨block :: rest, ?_⟩
      change block.bytes ++ blockBytes rest = bytes
      rw [start, others, List.take_append_drop]

theorem blocks?_blockBytes (blocks : List Block) : blocks? (blockBytes blocks) = some blocks := by
  have length := length_blockBytes blocks
  have positive : 0 < blockLength := by decide
  rw [blocks?, length, if_pos (Nat.mul_mod_right blockLength _), Nat.mul_div_cancel_left _ positive,
    takeBlocks?_blockBytes]

theorem exists_blockBytes_of_mod {bytes : Bytes} (whole : bytes.length % blockLength = 0) :
    ∃ blocks : List Block, blockBytes blocks = bytes := by
  apply exists_blockBytes_eq (bytes.length / blockLength)
  rw [Nat.mul_div_cancel' (Nat.dvd_of_mod_eq_zero whole)]

theorem blocks?_of_mod {bytes : Bytes} (partly : bytes.length % blockLength ≠ 0) :
    blocks? bytes = none := by
  rw [blocks?, if_neg partly]

theorem decryptBlocks_encryptBlocks (keys : RoundKeys) (previous : Block) (blocks : List Block) :
    decryptBlocks keys previous (encryptBlocks keys previous blocks) = blocks := by
  induction blocks generalizing previous with
  | nil =>
      rfl
  | cons block rest inductionHypothesis =>
      rw [encryptBlocks, decryptBlocks, inductionHypothesis, decryptBlock_encryptBlock,
        Block.xor_xor]

theorem encryptBlocks_decryptBlocks (keys : RoundKeys) (previous : Block) (blocks : List Block) :
    encryptBlocks keys previous (decryptBlocks keys previous blocks) = blocks := by
  induction blocks generalizing previous with
  | nil =>
      rfl
  | cons block rest inductionHypothesis =>
      rw [decryptBlocks, encryptBlocks, Block.xor_xor, encryptBlock_decryptBlock,
        inductionHypothesis]

-- The published vector of the chain, in its first two blocks.
example :
    decryptBlocks
        (.ofKey ⟨⟨0x2b, 0x7e, 0x15, 0x16⟩, ⟨0x28, 0xae, 0xd2, 0xa6⟩, ⟨0xab, 0xf7, 0x15, 0x88⟩,
          ⟨0x09, 0xcf, 0x4f, 0x3c⟩⟩)
        ⟨⟨0, 1, 2, 3⟩, ⟨4, 5, 6, 7⟩, ⟨8, 9, 10, 11⟩, ⟨12, 13, 14, 15⟩⟩
        [⟨⟨0x76, 0x49, 0xab, 0xac⟩, ⟨0x81, 0x19, 0xb2, 0x46⟩, ⟨0xce, 0xe9, 0x8e, 0x9b⟩,
            ⟨0x12, 0xe9, 0x19, 0x7d⟩⟩,
          ⟨⟨0x50, 0x86, 0xcb, 0x9b⟩, ⟨0x50, 0x72, 0x19, 0xee⟩, ⟨0x95, 0xdb, 0x11, 0x3a⟩,
            ⟨0x91, 0x76, 0x78, 0xb2⟩⟩] =
      [⟨⟨0x6b, 0xc1, 0xbe, 0xe2⟩, ⟨0x2e, 0x40, 0x9f, 0x96⟩, ⟨0xe9, 0x3d, 0x7e, 0x11⟩,
          ⟨0x73, 0x93, 0x17, 0x2a⟩⟩,
        ⟨⟨0xae, 0x2d, 0x8a, 0x57⟩, ⟨0x1e, 0x03, 0xac, 0x9c⟩, ⟨0x9e, 0xb7, 0x6f, 0xac⟩,
          ⟨0x45, 0xaf, 0x8e, 0x51⟩⟩] := by
  -- The tables are too slow to look things up in, so the bytes they hold are worked out.
  have substitute : subByte = fun byte => affine (ByteField.inverse byte) := funext subByte_eq
  have undo : invSubByte = fun byte => ByteField.inverse (inverseAffine byte) :=
    funext invSubByte_eq
  simp only [decryptBlocks, decryptBlock, RoundKeys.ofKey, roundConstants, expandKey, nextRoundKey,
    List.foldr_cons, List.foldr_nil, invRound, invSubBytes, substitute, undo]
  cbv

theorem length_decryptBlocks (keys : RoundKeys) (previous : Block) (blocks : List Block) :
    (decryptBlocks keys previous blocks).length = blocks.length := by
  induction blocks generalizing previous with
  | nil =>
      rfl
  | cons block rest inductionHypothesis =>
      rw [decryptBlocks, List.length_cons, List.length_cons, inductionHypothesis]

section Run

variable {chain : RoundKeys → Block → List Block → List Block} {key vector text : Bytes}

theorem run_blockBytes (chain : RoundKeys → Block → List Block → List Block) (key vector : Block)
    (blocks : List Block) :
    run chain key.bytes vector.bytes (blockBytes blocks) =
      .ok (blockBytes (chain (.ofKey key) vector blocks)) := by
  rw [run, Block.ofBytes?_bytes, Block.ofBytes?_bytes, blocks?_blockBytes]

theorem run_of_keyOrVectorLength
    (different : ¬(key.length = blockLength ∧ vector.length = blockLength)) :
    run chain key vector text = .error (.keyOrVectorLength key.length vector.length) := by
  rw [run]
  split
  · next keyBlock vectorBlock keyFound vectorFound =>
      rw [← Block.bytes_of_ofBytes? keyFound, ← Block.bytes_of_ofBytes? vectorFound] at different
      exact absurd ⟨rfl, rfl⟩ different
  · rfl

theorem run_of_textLength (keyLength : key.length = blockLength)
    (vectorLength : vector.length = blockLength) (partly : text.length % blockLength ≠ 0) :
    run chain key vector text = .error (.textLength text.length) := by
  obtain ⟨keyBlock, rfl⟩ := Block.exists_bytes_eq keyLength
  obtain ⟨vectorBlock, rfl⟩ := Block.exists_bytes_eq vectorLength
  rw [run, Block.ofBytes?_bytes, Block.ofBytes?_bytes, blocks?_of_mod partly]

theorem exists_run_eq (chain : RoundKeys → Block → List Block → List Block)
    (keyLength : key.length = blockLength) (vectorLength : vector.length = blockLength)
    (whole : text.length % blockLength = 0) :
    ∃ result, run chain key vector text = .ok result := by
  obtain ⟨keyBlock, rfl⟩ := Block.exists_bytes_eq keyLength
  obtain ⟨vectorBlock, rfl⟩ := Block.exists_bytes_eq vectorLength
  obtain ⟨blocks, rfl⟩ := exists_blockBytes_of_mod whole
  exact ⟨_, run_blockBytes chain keyBlock vectorBlock blocks⟩

/-- A chain that runs has a key and a vector of one block and a text of whole blocks. -/
theorem blocks_of_run {result : Bytes} (ran : run chain key vector text = .ok result) :
    ∃ (keyBlock vectorBlock : Block) (blocks : List Block),
      keyBlock.bytes = key ∧ vectorBlock.bytes = vector ∧ blockBytes blocks = text ∧
        blockBytes (chain (.ofKey keyBlock) vectorBlock blocks) = result := by
  by_cases lengths : key.length = blockLength ∧ vector.length = blockLength
  · obtain ⟨keyBlock, rfl⟩ := Block.exists_bytes_eq lengths.1
    obtain ⟨vectorBlock, rfl⟩ := Block.exists_bytes_eq lengths.2
    by_cases whole : text.length % blockLength = 0
    · obtain ⟨blocks, rfl⟩ := exists_blockBytes_of_mod whole
      rw [run_blockBytes] at ran
      injection ran with equality
      exact ⟨keyBlock, vectorBlock, blocks, rfl, rfl, rfl, equality⟩
    · rw [run_of_textLength lengths.1 lengths.2 whole] at ran
      contradiction
  · rw [run_of_keyOrVectorLength lengths] at ran
    contradiction

end Run

/-- A text is decrypted to exactly the text whose encryption it is. -/
theorem decrypt_eq_ok_iff {key vector ciphertext plaintext : Bytes} :
    decrypt key vector ciphertext = .ok plaintext ↔
      encrypt key vector plaintext = .ok ciphertext := by
  constructor
  · intro decrypted
    obtain ⟨keyBlock, vectorBlock, blocks, rfl, rfl, rfl, rfl⟩ := blocks_of_run decrypted
    rw [encrypt, run_blockBytes, encryptBlocks_decryptBlocks]
  · intro encrypted
    obtain ⟨keyBlock, vectorBlock, blocks, rfl, rfl, rfl, rfl⟩ := blocks_of_run encrypted
    rw [decrypt, run_blockBytes, decryptBlocks_encryptBlocks]

/-- Nothing is padded and nothing is stripped. -/
theorem length_of_decrypt {key vector ciphertext plaintext : Bytes}
    (decrypted : decrypt key vector ciphertext = .ok plaintext) :
    plaintext.length = ciphertext.length := by
  obtain ⟨keyBlock, vectorBlock, blocks, rfl, rfl, rfl, rfl⟩ := blocks_of_run decrypted
  rw [length_blockBytes, length_blockBytes, length_decryptBlocks]

end Chaining

end KeyStore
