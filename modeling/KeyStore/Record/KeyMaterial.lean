import KeyStore.Record.Basic

/-!
# Key material

The records that key versions hold, one shape for each kind of key. Every binary value is web-safe
base64; the numbers of RSA keys are written in their shortest big-endian form.
-/

namespace KeyStore

open Json

@[ext] structure RsaPublicRecord where
  modulus : String
  publicExponent : String
  /-- The length of the modulus in bits. -/
  size : UInt64
deriving DecidableEq, Repr

instance : Recorded RsaPublicRecord where
  shape := .record "RsaPublicKeyJson" false
    (.cons "modulus" .text
      (.cons "publicExponent" .text
        (.cons "size" .word64 .nil)))
  toDatum record := (record.modulus, record.publicExponent, record.size.toFin, ())
  ofDatum datum := ⟨datum.1, datum.2.1, .ofFin datum.2.2.1⟩
  ofDatum_toDatum _ := rfl
  toDatum_ofDatum _ := rfl

/-- A private RSA key with two prime factors. -/
@[ext] structure RsaPrivateRecord where
  crtCoefficient : String
  primeExponentP : String
  primeExponentQ : String
  primeP : String
  primeQ : String
  privateExponent : String
  publicKey : RsaPublicRecord
  size : UInt64
deriving DecidableEq, Repr

instance : Recorded RsaPrivateRecord where
  shape := .record "RsaPrivateKeyJson" false
    (.cons "crtCoefficient" .text
      (.cons "primeExponentP" .text
        (.cons "primeExponentQ" .text
          (.cons "primeP" .text
            (.cons "primeQ" .text
              (.cons "privateExponent" .text
                (.cons "publicKey" (Recorded.shape RsaPublicRecord)
                  (.cons "size" .word64 .nil))))))))
  toDatum record :=
    (record.crtCoefficient, record.primeExponentP, record.primeExponentQ, record.primeP,
      record.primeQ, record.privateExponent, Recorded.toDatum record.publicKey,
      record.size.toFin, ())
  ofDatum datum :=
    { crtCoefficient := datum.1
      primeExponentP := datum.2.1
      primeExponentQ := datum.2.2.1
      primeP := datum.2.2.2.1
      primeQ := datum.2.2.2.2.1
      privateExponent := datum.2.2.2.2.2.1
      publicKey := Recorded.ofDatum datum.2.2.2.2.2.2.1
      size := .ofFin datum.2.2.2.2.2.2.2.1 }
  ofDatum_toDatum _ := rfl
  toDatum_ofDatum _ := rfl

inductive CipherMode where
  | cbc
deriving DecidableEq, Repr

instance : Recorded CipherMode where
  shape := .choice ["CBC"]
  toDatum _ := (0 : Fin 1)
  ofDatum _ := .cbc
  ofDatum_toDatum _ := rfl
  toDatum_ofDatum := fun (index : Fin 1) => by
    match index with
    | 0 => rfl

@[ext] structure HmacRecord where
  hmacKeyString : String
  /-- The length of the key in bits. -/
  size : UInt64
deriving DecidableEq, Repr

instance : Recorded HmacRecord where
  shape := .record "HmacKeyJson" false
    (.cons "hmacKeyString" .text
      (.cons "size" .word64 .nil))
  toDatum record := (record.hmacKeyString, record.size.toFin, ())
  ofDatum datum := ⟨datum.1, .ofFin datum.2.1⟩
  ofDatum_toDatum _ := rfl
  toDatum_ofDatum _ := rfl

@[ext] structure AesRecord where
  aesKeyString : String
  hmacKey : HmacRecord
  mode : CipherMode
  size : UInt64
deriving DecidableEq, Repr

instance : Recorded AesRecord where
  shape := .record "AesKeyJson" false
    (.cons "aesKeyString" .text
      (.cons "hmacKey" (Recorded.shape HmacRecord)
        (.cons "mode" (Recorded.shape CipherMode)
          (.cons "size" .word64 .nil))))
  toDatum record :=
    (record.aesKeyString, Recorded.toDatum record.hmacKey, Recorded.toDatum record.mode,
      record.size.toFin, ())
  ofDatum datum :=
    { aesKeyString := datum.1
      hmacKey := Recorded.ofDatum datum.2.1
      mode := Recorded.ofDatum datum.2.2.1
      size := .ofFin datum.2.2.2.1 }
  ofDatum_toDatum _ := rfl
  toDatum_ofDatum datum := by
    simp only [Recorded.toDatum_ofDatum]
    rfl

inductive KeyRecord where
  | rsaPrivate (record : RsaPrivateRecord)
  | rsaPublic (record : RsaPublicRecord)
  | aes (record : AesRecord)
deriving DecidableEq, Repr

def KeyRecord.serialize : KeyRecord → String
  | .rsaPrivate record => Recorded.serialize record
  | .rsaPublic record => Recorded.serialize record
  | .aes record => Recorded.serialize record

end KeyStore
