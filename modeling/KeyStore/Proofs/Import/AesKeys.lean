import KeyStore.Import.Importer
import KeyStore.Proofs.Base64.PaddedText
import KeyStore.Proofs.Files.StoreEntries
import KeyStore.Proofs.Record.CanonicalText

/-!
# Stores around keys of block ciphers

The record of a key of a block cipher holds both byte strings in full, whatever they are, so that
its text belongs to no other key. Copied to the files of a directory, the store answers as before.
-/

namespace KeyStore

namespace AesRecord

/-- What the record of a key says about it. A size is a number of 64 bits, which is the exact count
for every byte string of fewer than 2 ^ 61 bytes. -/
structure Describes (record : AesRecord) (aesKey : AesKey) : Prop where
  key : WebSafe.decode record.aesKeyString = .ok aesKey.key
  hmacKey : WebSafe.decode record.hmacKey.hmacKeyString = .ok aesKey.hmacKey
  size : record.size.toNat = 8 * aesKey.key.length % UInt64.size
  hmacSize : record.hmacKey.size.toNat = 8 * aesKey.hmacKey.length % UInt64.size

theorem describes_ofKey (aesKey : AesKey) : (ofKey aesKey).Describes aesKey where
  key := WebSafe.decode_encode aesKey.key
  hmacKey := WebSafe.decode_encode aesKey.hmacKey
  size := UInt64.toNat_ofNat'
  hmacSize := UInt64.toNat_ofNat'

theorem Describes.unique {record : AesRecord} {left right : AesKey}
    (describesLeft : record.Describes left) (describesRight : record.Describes right) :
    left = right := by
  have key := describesLeft.key.symm.trans describesRight.key
  have hmacKey := describesLeft.hmacKey.symm.trans describesRight.hmacKey
  exact congrArg₂ AesKey.mk (Except.ok.inj key) (Except.ok.inj hmacKey)

theorem ofKey_injective : Function.Injective ofKey := by
  intro left right same
  have describesRight := describes_ofKey right
  rw [← same] at describesRight
  exact (describes_ofKey left).unique describesRight

end AesRecord

namespace Reader

/-- The store of a key of a block cipher answers for every version with a record from which both
byte strings are decoded and which counts their bits. No other key has the same text. Once the
metadata and a version have been written to the files of a directory, the directory answers with
the same two texts. -/
theorem aes_store_is_faithful (key : AesKey) :
    ∃ metadata text : String,
      (∀ files, ((ofAesKey key).metadata files).outcome = .ok metadata) ∧
      (∀ files version, ((ofAesKey key).key files version).outcome = .ok text) ∧
      (∃ record, Recorded.parse AesRecord text = .ok record ∧ record.Describes key) ∧
      (∀ other files version,
        ((ofAesKey other).key files version).outcome = .ok text → other = key) ∧
      ∀ (location : StoreLocation) (tree : FileTree) (version : UInt32),
        location.IsDirectoryOf tree → tree.Admits location.metadataPath →
        tree.Admits (location.versionPath version) →
        let written := (tree.write location.metadataPath (Utf8.encode metadata)).write
          (location.versionPath version) (Utf8.encode text)
        ((directory location).metadata written.access).outcome = .ok metadata ∧
          ((directory location).key written.access version).outcome = .ok text := by
  have survives := Recorded.survivesText_of_isFaithful AesRecord.isFaithful_shape
  refine ⟨_, Recorded.serialize (AesRecord.ofKey key), fun _ => rfl, fun _ _ => rfl, ?_, ?_, ?_⟩
  · exact ⟨AesRecord.ofKey key, survives.written _, AesRecord.describes_ofKey key⟩
  · intro other files version same
    exact AesRecord.ofKey_injective (survives.unique _ _ (Except.ok.inj same))
  · intro location tree version store metadataAdmitted versionAdmitted
    exact store.outcome_written metadataAdmitted versionAdmitted _ _

theorem aes_store_is_faithful_in_empty_directory :
    let location := StoreLocation.ofPath "store"
    let tree := FileTree.directory [("store", .empty)]
    location.IsDirectoryOf tree ∧ tree.Admits location.metadataPath ∧
      tree.Admits (location.versionPath 1) ∧
      ∃ metadata text : String,
        ((ofAesKey ⟨[1, 2, 3], []⟩).metadata tree.access).outcome = .ok metadata ∧
        ((ofAesKey ⟨[1, 2, 3], []⟩).key tree.access 1).outcome = .ok text ∧
        let written := (tree.write location.metadataPath (Utf8.encode metadata)).write
          (location.versionPath 1) (Utf8.encode text)
        ((directory location).metadata written.access).outcome = .ok metadata ∧
          ((directory location).key written.access 1).outcome = .ok text := by
  intro location tree
  have store : location.IsDirectoryOf tree :=
    { relative := by decide, inside := by decide, found := .inr (by decide +kernel) }
  have metadataAdmitted : tree.Admits location.metadataPath := by decide +kernel
  have versionAdmitted : tree.Admits (location.versionPath 1) := by decide +kernel
  obtain ⟨metadata, text, readMetadata, readKey, _, _, copied⟩ :=
    aes_store_is_faithful ⟨[1, 2, 3], []⟩
  exact ⟨store, metadataAdmitted, versionAdmitted, metadata, text, readMetadata _, readKey _ 1,
    copied location tree 1 store metadataAdmitted versionAdmitted⟩

end Reader

end KeyStore
