import KeyStore.Record.Basic

/-!
# Metadata of a key store

What a store says about its keys: their kind, what they may be used for, and the versions there are.
-/

namespace KeyStore

open Json

inductive KeyType where
  | aes
  | hmacSha1
  | dsaPrivate
  | dsaPublic
  | rsaPrivate
  | rsaPublic
deriving DecidableEq, Repr

/-- What the keys of a store may be used for. -/
inductive KeyPurpose where
  | decryptAndEncrypt
  | encrypt
  | signAndVerify
  | verify
  | test
deriving DecidableEq, Repr

inductive KeyStatus where
  | primary
  | active
  | inactive
deriving DecidableEq, Repr

instance : Recorded KeyType where
  shape := .choice ["AES", "HMAC_SHA1", "DSA_PRIV", "DSA_PUB", "RSA_PRIV", "RSA_PUB"]
  toDatum
    | .aes => (0 : Fin 6)
    | .hmacSha1 => (1 : Fin 6)
    | .dsaPrivate => (2 : Fin 6)
    | .dsaPublic => (3 : Fin 6)
    | .rsaPrivate => (4 : Fin 6)
    | .rsaPublic => (5 : Fin 6)
  ofDatum := fun (index : Fin 6) => match index with
    | 0 => .aes
    | 1 => .hmacSha1
    | 2 => .dsaPrivate
    | 3 => .dsaPublic
    | 4 => .rsaPrivate
    | 5 => .rsaPublic
  ofDatum_toDatum value := by cases value <;> rfl
  toDatum_ofDatum := fun (index : Fin 6) => by
    match index with
    | 0 | 1 | 2 | 3 | 4 | 5 => rfl

instance : Recorded KeyPurpose where
  shape := .choice ["DECRYPT_AND_ENCRYPT", "ENCRYPT", "SIGN_AND_VERIFY", "VERIFY", "TEST"]
  toDatum
    | .decryptAndEncrypt => (0 : Fin 5)
    | .encrypt => (1 : Fin 5)
    | .signAndVerify => (2 : Fin 5)
    | .verify => (3 : Fin 5)
    | .test => (4 : Fin 5)
  ofDatum := fun (index : Fin 5) => match index with
    | 0 => .decryptAndEncrypt
    | 1 => .encrypt
    | 2 => .signAndVerify
    | 3 => .verify
    | 4 => .test
  ofDatum_toDatum value := by cases value <;> rfl
  toDatum_ofDatum := fun (index : Fin 5) => by
    match index with
    | 0 | 1 | 2 | 3 | 4 => rfl

instance : Recorded KeyStatus where
  shape := .choice ["PRIMARY", "ACTIVE", "INACTIVE"]
  toDatum
    | .primary => (0 : Fin 3)
    | .active => (1 : Fin 3)
    | .inactive => (2 : Fin 3)
  ofDatum := fun (index : Fin 3) => match index with
    | 0 => .primary
    | 1 => .active
    | 2 => .inactive
  ofDatum_toDatum value := by cases value <;> rfl
  toDatum_ofDatum := fun (index : Fin 3) => by
    match index with
    | 0 | 1 | 2 => rfl

@[ext] structure KeyVersion where
  versionNumber : UInt32
  status : KeyStatus
  exportable : Bool
deriving DecidableEq, Repr

instance : Recorded KeyVersion where
  shape := .record "KeyVersion" false
    (.cons "versionNumber" .word32
      (.cons "status" (Recorded.shape KeyStatus)
        (.cons "exportable" .flag .nil)))
  toDatum version :=
    (version.versionNumber.toFin, Recorded.toDatum version.status, version.exportable, ())
  ofDatum datum := ⟨.ofFin datum.1, Recorded.ofDatum datum.2.1, datum.2.2.1⟩
  ofDatum_toDatum version := by
    simp only [Recorded.ofDatum_toDatum]
    rfl
  toDatum_ofDatum datum := by
    simp only [Recorded.toDatum_ofDatum]
    rfl

@[ext] structure KeyMetadata where
  name : String
  keyType : KeyType
  purpose : KeyPurpose
  encrypted : Bool
  versions : List KeyVersion
deriving DecidableEq, Repr

instance : Recorded KeyMetadata where
  shape := .record "KeyMeta" false
    (.cons "name" .text
      (.cons "type" (Recorded.shape KeyType)
        (.cons "purpose" (Recorded.shape KeyPurpose)
          (.cons "encrypted" .flag
            (.cons "versions" (.sequence (Recorded.shape KeyVersion)) .nil)))))
  toDatum metadata :=
    (metadata.name, Recorded.toDatum metadata.keyType, Recorded.toDatum metadata.purpose,
      metadata.encrypted, metadata.versions.map Recorded.toDatum, ())
  ofDatum datum :=
    { name := datum.1
      keyType := Recorded.ofDatum datum.2.1
      purpose := Recorded.ofDatum datum.2.2.1
      encrypted := datum.2.2.2.1
      versions := List.map Recorded.ofDatum datum.2.2.2.2.1 }
  ofDatum_toDatum metadata := by
    have versions : (metadata.versions.map Recorded.toDatum).map Recorded.ofDatum =
        metadata.versions := by
      simp [Function.comp_def, Recorded.ofDatum_toDatum]
    ext1
    · rfl
    · exact Recorded.ofDatum_toDatum _
    · exact Recorded.ofDatum_toDatum _
    · rfl
    · exact versions
  toDatum_ofDatum datum := by
    obtain ⟨name, keyType, purpose, encrypted, versions, _⟩ := datum
    have each (list : List (Recorded.shape KeyVersion).Datum) :
        (list.map Recorded.ofDatum).map (Recorded.toDatum (α := KeyVersion)) = list := by
      simp [Function.comp_def, Recorded.toDatum_ofDatum]
    simp only [Recorded.toDatum_ofDatum]
    exact congrArg (fun list => (name, keyType, purpose, encrypted, list, ())) (each versions)

namespace KeyMetadata

/-- The metadata of a store made around one imported key: a single version with number one, which
is in use, may not leave the store, and is not encrypted. -/
def imported (name : String) (keyType : KeyType) (purpose : KeyPurpose) : KeyMetadata where
  name := name
  keyType := keyType
  purpose := purpose
  encrypted := false
  versions := [⟨1, .primary, false⟩]

def primary? (metadata : KeyMetadata) : Option KeyVersion :=
  metadata.versions.find? (·.status = .primary)

end KeyMetadata

end KeyStore
