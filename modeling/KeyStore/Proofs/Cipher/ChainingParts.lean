import KeyStore.Protection
import KeyStore.Proofs.Cipher.ChainingInverse

/-!
# Decryption in parts

Decryption under a key and a vector pairs the texts of whole blocks one to one and keeps their
lengths. A text can be decrypted in two parts at every block boundary: the last encrypted block of
the first part is the vector of the second. Other lengths are refused, those of the key and the
vector before that of the text.
-/

namespace KeyStore

namespace Chaining

open Aes

def lastBlock (bytes : Bytes) : Bytes :=
  bytes.drop (bytes.length - 16)

theorem lastBlock_append (start : Bytes) {rest : Bytes} (enough : 16 ≤ rest.length) :
    lastBlock (start ++ rest) = lastBlock rest := by
  have split : (start ++ rest).length - 16 = start.length + (rest.length - 16) := by
    rw [List.length_append]
    omega
  rw [lastBlock, split, ← List.drop_drop, List.drop_left, lastBlock]

theorem lastBlock_blockBytes (previous : Block) (blocks : List Block) :
    lastBlock (previous.bytes ++ blockBytes blocks) = (blocks.getLastD previous).bytes := by
  induction blocks generalizing previous with
  | nil => rfl
  | cons block rest inductionHypothesis =>
      have enough : 16 ≤ (block.bytes ++ blockBytes rest).length := by
        rw [List.length_append, Block.length_bytes, blockLength]
        omega
      rw [List.getLastD_cons, ← inductionHypothesis]
      exact lastBlock_append previous.bytes enough

/-- The encrypted block before the second part is the last one of the first part. -/
theorem decryptBlocks_append (keys : RoundKeys) (previous : Block) (first second : List Block) :
    decryptBlocks keys previous (first ++ second) =
      decryptBlocks keys previous first ++
        decryptBlocks keys (first.getLastD previous) second := by
  induction first generalizing previous with
  | nil => rfl
  | cons block rest inductionHypothesis =>
      rw [List.cons_append, decryptBlocks, decryptBlocks, inductionHypothesis, List.getLastD_cons,
        List.cons_append]

theorem blockBytes_append (first second : List Block) :
    blockBytes (first ++ second) = blockBytes first ++ blockBytes second :=
  List.flatMap_append

section Texts

variable {key vector : Bytes}

theorem exists_decrypt_append (keyLength : key.length = 16) (vectorLength : vector.length = 16)
    {first second : Bytes} (firstWhole : first.length % 16 = 0)
    (secondWhole : second.length % 16 = 0) :
    ∃ start rest, decrypt key vector first = .ok start ∧
      decrypt key (lastBlock (vector ++ first)) second = .ok rest ∧
      decrypt key vector (first ++ second) = .ok (start ++ rest) := by
  obtain ⟨keyBlock, rfl⟩ := Block.exists_bytes_eq keyLength
  obtain ⟨previous, rfl⟩ := Block.exists_bytes_eq vectorLength
  obtain ⟨firstBlocks, rfl⟩ := exists_blockBytes_of_mod firstWhole
  obtain ⟨secondBlocks, rfl⟩ := exists_blockBytes_of_mod secondWhole
  have decrypted (vectorBlock : Block) (blocks : List Block) :
      decrypt keyBlock.bytes vectorBlock.bytes (blockBytes blocks) =
        .ok (blockBytes (decryptBlocks (.ofKey keyBlock) vectorBlock blocks)) :=
    run_blockBytes decryptBlocks keyBlock vectorBlock blocks
  have whole := decrypted previous (firstBlocks ++ secondBlocks)
  rw [decryptBlocks_append, blockBytes_append, blockBytes_append] at whole
  rw [lastBlock_blockBytes]
  exact ⟨_, _, decrypted previous firstBlocks, decrypted _ secondBlocks, whole⟩

/-- Every text of whole blocks is what exactly one text is decrypted to. -/
theorem existsUnique_decrypt_eq (keyLength : key.length = 16) (vectorLength : vector.length = 16)
    {plaintext : Bytes} (whole : plaintext.length % 16 = 0) :
    ∃! text, decrypt key vector text = .ok plaintext := by
  obtain ⟨text, encrypted⟩ := exists_run_eq encryptBlocks keyLength vectorLength whole
  refine ⟨text, decrypt_eq_ok_iff.mpr encrypted, ?_⟩
  intro other decrypted
  have encryptedToOther := decrypt_eq_ok_iff.mp decrypted
  exact Except.ok.inj (encryptedToOther.symm.trans encrypted)

end Texts

end Chaining

namespace Envelope

variable {key vector text : Bytes}

theorem decryptText_eq_ok_iff {plaintext : Bytes} :
    decryptText key vector text = .ok plaintext ↔
      Chaining.decrypt key vector text = .ok plaintext := by
  rw [decryptText]
  cases Chaining.decrypt key vector text with
  | ok other => simp only [Except.ok.injEq]
  | error fault => exact ⟨nofun, nofun⟩

theorem decryptText_of_refused {fault : Chaining.Fault}
    (refused : Chaining.decrypt key vector text = .error fault) :
    decryptText key vector text = .error (.chaining fault) := by
  rw [decryptText, refused]

/-- Under a key and a vector of sixteen bytes each, every text of whole blocks is decrypted to a
text of its length, whose encryption it is, and every text of whole blocks comes from exactly one
text. A text in two parts is decrypted in two parts, the second after the last block before it. All
other lengths are refused. -/
theorem decryption_is_chained_bijection (key vector : Bytes) :
    (key.length = 16 ∧ vector.length = 16 →
      (∀ text : Bytes, text.length % 16 = 0 →
        ∃ plaintext, decryptText key vector text = .ok plaintext ∧
          plaintext.length = text.length ∧ Chaining.encrypt key vector plaintext = .ok text) ∧
      (∀ plaintext : Bytes, plaintext.length % 16 = 0 →
        ∃! text, decryptText key vector text = .ok plaintext) ∧
      (∀ text other plaintext, decryptText key vector text = .ok plaintext →
        decryptText key vector other = .ok plaintext → text = other) ∧
      (∀ first second : Bytes, first.length % 16 = 0 → second.length % 16 = 0 →
        ∃ start rest, decryptText key vector first = .ok start ∧
          decryptText key (Chaining.lastBlock (vector ++ first)) second = .ok rest ∧
          decryptText key vector (first ++ second) = .ok (start ++ rest)) ∧
      (∀ text : Bytes, text.length % 16 ≠ 0 →
        decryptText key vector text = .error (.chaining (.textLength text.length)))) ∧
    (¬(key.length = 16 ∧ vector.length = 16) →
      ∀ text, decryptText key vector text =
        .error (.chaining (.keyOrVectorLength key.length vector.length))) := by
  constructor
  · rintro ⟨keyLength, vectorLength⟩
    simp only [decryptText_eq_ok_iff]
    refine ⟨?_, ?_, ?_, ?_, ?_⟩
    · intro text whole
      obtain ⟨plaintext, decrypted⟩ :=
        Chaining.exists_run_eq Chaining.decryptBlocks keyLength vectorLength whole
      exact ⟨plaintext, decrypted, Chaining.length_of_decrypt decrypted,
        Chaining.decrypt_eq_ok_iff.mp decrypted⟩
    · intro plaintext whole
      exact Chaining.existsUnique_decrypt_eq keyLength vectorLength whole
    · intro text other plaintext decrypted otherDecrypted
      have encrypted := Chaining.decrypt_eq_ok_iff.mp decrypted
      have otherEncrypted := Chaining.decrypt_eq_ok_iff.mp otherDecrypted
      exact Except.ok.inj (encrypted.symm.trans otherEncrypted)
    · intro first second firstWhole secondWhole
      exact Chaining.exists_decrypt_append keyLength vectorLength firstWhole secondWhole
    · intro text partly
      exact decryptText_of_refused (Chaining.run_of_textLength keyLength vectorLength partly)
  · intro different text
    exact decryptText_of_refused (Chaining.run_of_keyOrVectorLength different)

theorem decryption_is_chained_bijection_of_two_blocks :
    let key := List.replicate 16 (3 : UInt8)
    let vector := List.replicate 16 (9 : UInt8)
    let first := List.replicate 16 (1 : UInt8)
    let second := List.replicate 16 (2 : UInt8)
    (key.length = 16 ∧ vector.length = 16) ∧ first.length % 16 = 0 ∧ second.length % 16 = 0 ∧
      ∃ start rest, decryptText key vector first = .ok start ∧
        decryptText key first second = .ok rest ∧
        decryptText key vector (first ++ second) = .ok (start ++ rest) := by
  intro key vector first second
  have lengths : key.length = 16 ∧ vector.length = 16 := by decide
  obtain ⟨_, _, _, inParts, _⟩ := (decryption_is_chained_bijection key vector).1 lengths
  exact ⟨lengths, by decide, by decide, inParts first second (by decide) (by decide)⟩

end Envelope

end KeyStore
