import KeyStore.Import.KeyRecords
import KeyStore.Proofs.Base64.WebSafe
import KeyStore.Proofs.BigEndian
import KeyStore.Proofs.Json.RoundTrip
import KeyStore.Proofs.Rsa.Key

/-!
# What the records of imported keys say

The fields of a record hold the numbers of its key in their shortest forms, and the text of the
record is read back as the record.
-/

namespace KeyStore

open Json

/-- A text is the base64 form of the bytes of a positive number, of which the first is not zero. -/
def HoldsNumber (text : String) (number : Nat) : Prop :=
  ∃ first rest, WebSafe.decode text = .ok (first :: rest) ∧ first ≠ 0 ∧
    Bytes.toNat (first :: rest) = number

theorem decode_encodeNumber (number : Nat) :
    WebSafe.decode (encodeNumber number) = .ok (Bytes.ofNat number) :=
  WebSafe.decode_encode (Bytes.ofNat number)

theorem holdsNumber_encodeNumber {number : Nat} (positive : 0 < number) :
    HoldsNumber (encodeNumber number) number := by
  obtain ⟨first, rest, form, nonzero⟩ := Bytes.exists_ofNat_eq_cons positive
  have decoded := decode_encodeNumber number
  have value := Bytes.toNat_ofNat number
  rw [form] at decoded value
  exact ⟨first, rest, decoded, nonzero, value⟩

theorem HoldsNumber.unique {text : String} {left right : Nat} (holdsLeft : HoldsNumber text left)
    (holdsRight : HoldsNumber text right) : left = right := by
  obtain ⟨first, rest, leftForm, _, rfl⟩ := holdsLeft
  obtain ⟨otherFirst, otherRest, rightForm, _, rfl⟩ := holdsRight
  rw [Except.ok.inj (leftForm.symm.trans rightForm)]

/-- The number of bytes that a text holds is that of the binary digits, divided by eight and rounded
up. -/
theorem HoldsNumber.bitLength_bounds {text : String} {number : Nat}
    (holds : HoldsNumber text number) {bytes : Bytes} (decoded : WebSafe.decode text = .ok bytes) :
    8 * (bytes.length - 1) < bitLength number ∧ bitLength number ≤ 8 * bytes.length := by
  obtain ⟨first, rest, form, nonzero, value⟩ := holds
  obtain rfl := Except.ok.inj (form.symm.trans decoded)
  rw [← value, List.length_cons, Nat.add_sub_cancel]
  exact KeyStore.bitLength_bounds rest nonzero

namespace RsaPublicRecord

def fields : Fields :=
  .cons "modulus" .text
    (.cons "publicExponent" .text
      (.cons "size" .word64 .nil))

theorem shape_eq :
    Recorded.shape RsaPublicRecord = .record "RsaPublicKeyJson" false fields := rfl

theorem isFaithful_shape : (Recorded.shape RsaPublicRecord).IsFaithful := by
  rw [shape_eq]
  decide

end RsaPublicRecord

namespace RsaPrivateRecord

def fields : Fields :=
  .cons "crtCoefficient" .text
    (.cons "primeExponentP" .text
      (.cons "primeExponentQ" .text
        (.cons "primeP" .text
          (.cons "primeQ" .text
            (.cons "privateExponent" .text
              (.cons "publicKey" (Recorded.shape RsaPublicRecord)
                (.cons "size" .word64 .nil)))))))

theorem shape_eq :
    Recorded.shape RsaPrivateRecord = .record "RsaPrivateKeyJson" false fields := rfl

theorem isFaithful_shape : (Recorded.shape RsaPrivateRecord).IsFaithful := by
  rw [shape_eq]
  decide

end RsaPrivateRecord

/-- A record holds the numbers of a public key and the length of its modulus in bits. -/
structure RsaPublicRecord.Describes (record : RsaPublicRecord) (key : Rsa.PublicKey) : Prop where
  modulus : HoldsNumber record.modulus key.modulus
  publicExponent : HoldsNumber record.publicExponent key.exponent
  size : record.size.toNat = bitLength key.modulus

theorem RsaPublicRecord.describes_ofKey {key : Rsa.PublicKey}
    (small : key.size < UInt64.size) : (RsaPublicRecord.ofKey key).Describes key where
  modulus := holdsNumber_encodeNumber key.modulus_pos
  publicExponent := holdsNumber_encodeNumber key.exponent_pos
  size := UInt64.toNat_ofNat_of_lt' small

/-- An exponent comes out the same whether it is at hand or not. -/
theorem crtExponent_map_precomputed (key : Rsa.PrivateKey) (pick : Rsa.Precomputed → Nat)
    {factor : Nat}
    (picked : pick ⟨key.exponentP, key.exponentQ⟩ = key.exponent % (factor - 1)) :
    crtExponent (key.precomputed?.map pick) key.exponent factor =
      key.exponent % (factor - 1) := by
  rw [Rsa.PrivateKey.precomputed?]
  split
  · exact picked
  · rfl

/-- A record holds the numbers of a private key, apart from the coefficient, and the length of its
modulus in bits. -/
structure RsaPrivateRecord.Describes (record : RsaPrivateRecord) (key : Rsa.PrivateKey) :
    Prop where
  publicKey : record.publicKey.Describes key.publicKey
  privateExponent : HoldsNumber record.privateExponent key.exponent
  primeP : HoldsNumber record.primeP key.p
  primeQ : HoldsNumber record.primeQ key.q
  primeExponentP : HoldsNumber record.primeExponentP (key.exponent % (key.p - 1))
  primeExponentQ : HoldsNumber record.primeExponentQ (key.exponent % (key.q - 1))
  size : record.size.toNat = bitLength key.publicKey.modulus

section Factors

variable {key : Rsa.PrivateKey} {factor : Nat}

theorem holdsNumber_factor (member : factor ∈ key.factors) :
    HoldsNumber (encodeNumber factor) factor :=
  holdsNumber_encodeNumber (Nat.zero_lt_of_lt (Rsa.PrivateKey.one_lt_of_mem_factors member))

theorem holdsNumber_exponent (pick : Rsa.Precomputed → Nat) (member : factor ∈ key.factors)
    (picked : pick ⟨key.exponentP, key.exponentQ⟩ = key.exponent % (factor - 1)) :
    HoldsNumber (encodeNumber (crtExponent (key.precomputed?.map pick) key.exponent factor))
      (key.exponent % (factor - 1)) := by
  rw [crtExponent_map_precomputed key pick picked]
  exact holdsNumber_encodeNumber (Rsa.PrivateKey.exponent_mod_bounds member).1

end Factors

namespace RsaPrivateRecord

variable {key : Rsa.PrivateKey}

theorem describes_ofKey (small : key.publicKey.size < UInt64.size) :
    (ofKey key).Describes key where
  publicKey := RsaPublicRecord.describes_ofKey small
  privateExponent := holdsNumber_encodeNumber key.exponent_pos
  primeP := holdsNumber_factor key.p_mem_factors
  primeQ := holdsNumber_factor key.q_mem_factors
  primeExponentP := holdsNumber_exponent Rsa.Precomputed.exponentP key.p_mem_factors rfl
  primeExponentQ := holdsNumber_exponent Rsa.Precomputed.exponentQ key.q_mem_factors rfl
  size := UInt64.toNat_ofNat_of_lt' small

/-- The coefficient of a record, if there is one, is the inverse of the second factor. -/
theorem exists_holdsNumber_coefficient (coprime : key.p.Coprime key.q) :
    ∃ coefficient, HoldsNumber (ofKey key).crtCoefficient coefficient ∧ 1 ≤ coefficient ∧
      coefficient < key.p ∧ coefficient * key.q % key.p = 1 := by
  obtain ⟨coefficient, found, positive, below, inverse⟩ :=
    Rsa.PrivateKey.exists_coefficient?_eq coprime
  refine ⟨coefficient, ?_, positive, below, inverse⟩
  have field : (ofKey key).crtCoefficient = encodeNumber coefficient := by
    rw [ofKey, found]
    rfl
  rw [field]
  exact holdsNumber_encodeNumber positive

/-- In place of a coefficient that does not exist a record holds a single zero byte. -/
theorem decode_crtCoefficient_of_not_coprime (common : ¬key.p.Coprime key.q) :
    WebSafe.decode (ofKey key).crtCoefficient = .ok [0] := by
  have missing := Rsa.PrivateKey.coefficient?_eq_none_iff.mpr common
  have field : (ofKey key).crtCoefficient = encodeNumber 0 := by
    rw [ofKey, missing]
    rfl
  have zero : Bytes.ofNat 0 = [0] := by
    rw [Bytes.ofNat, if_pos (by decide)]
    rfl
  rw [field, decode_encodeNumber, zero]

end RsaPrivateRecord

end KeyStore
