import KeyStore.Proofs.Der.PublicKeyInfo
import KeyStore.Proofs.Import.KeyRecords
import KeyStore.Proofs.Import.Loading
import KeyStore.Proofs.Rsa.Encoding

/-!
# Importing public keys

A file with public key information for RSA is imported as the record of its key if the two numbers
make a key, and is refused with a fault of the key otherwise. Parameters of the algorithm do not
count, but they have to be an element that can be read.
-/

namespace KeyStore

open Log Der Rsa

/-- The algorithm is compared before the key is looked at. -/
theorem rsaKey_of_other {info : PublicKeyInfo}
    (other : info.algorithm.algorithm ≠ .rsaEncryption) :
    rsaKey info = .error (.notRsa info.algorithm.algorithm) :=
  if_pos other

theorem rsaKey_of_same {info : PublicKeyInfo}
    (same : info.algorithm.algorithm = .rsaEncryption) :
    rsaKey info = (Rsa.PublicKey.decode info.key).mapError .rsa := by
  rw [rsaKey, if_neg (not_not_intro same)]
  cases Rsa.PublicKey.decode info.key with
  | error fault => rfl
  | ok key => rfl

section Outcomes

variable {parameters : Bytes} {modulus exponent : Int}

/-- The element of public key information for RSA with two integers in place of a key. -/
def rsaForm (parameters : Bytes) (modulus exponent : Int) : Element :=
  PublicKeyInfo.form .rsaEncryption parameters (publicForm modulus exponent).encode

/-- Public key information that can be read is left to the decoder of keys. -/
theorem decodePublicKey_rsaForm (allowed : AreParameters parameters)
    (short : (rsaForm parameters modulus exponent).encode.length < lengthLimit) :
    decodePublicKey (rsaForm parameters modulus exponent).encode =
      (Rsa.PublicKey.decode (publicForm modulus exponent).encode).mapError .rsa := by
  obtain ⟨found, encodes⟩ := allowed
  have read := PublicKeyInfo.decode?_form encodes short
  rw [decodePublicKey, rsaForm, read, rsaKeyOf, rsaKey_of_same rfl]

theorem decodePublicKey_rsaForm_of_refused (refused : ¬(AreParameters parameters ∧
      (rsaForm parameters modulus exponent).encode.length < lengthLimit)) :
    decodePublicKey (rsaForm parameters modulus exponent).encode = .error .der := by
  rw [decodePublicKey, rsaForm, PublicKeyInfo.decode?_form_eq_none refused, rsaKeyOf]

theorem decodePublicKey_of_publicNumbers {key : Rsa.PublicKey} (allowed : AreParameters parameters)
    (short : (rsaForm parameters modulus exponent).encode.length < lengthLimit)
    (numbers : ArePublicNumbers modulus exponent key) :
    decodePublicKey (rsaForm parameters modulus exponent).encode = .ok key := by
  have inside : (publicForm modulus exponent).encode.length < lengthLimit :=
    PublicKeyInfo.key_lt_form.trans short
  rw [decodePublicKey_rsaForm allowed short, Rsa.PublicKey.decode_publicForm numbers inside]
  rfl

theorem exists_decodePublicKey_error (allowed : AreParameters parameters)
    (short : (rsaForm parameters modulus exponent).encode.length < lengthLimit)
    (notNumbers : ∀ key, ¬ArePublicNumbers modulus exponent key) :
    ∃ fault, decodePublicKey (rsaForm parameters modulus exponent).encode =
      .error (.rsa fault) := by
  obtain ⟨fault, failed⟩ := Rsa.PublicKey.exists_decode_publicForm_error notNumbers
  refine ⟨fault, ?_⟩
  rw [decodePublicKey_rsaForm allowed short, failed]
  rfl

end Outcomes

namespace Importer

section Record

variable {importer : Importer} {files : FileAccess} {path : String} {parameters : Bytes}
  {modulus exponent : Int}

theorem outcome_run_of_publicBlock {contents : Bytes} (source : importer.source = .publicKey)
    (holds : files.HoldsBlock path contents) :
    (importer.run files path).outcome =
      (decodePublicKey contents).map (.ofPublicKey · importer.purpose) := by
  rw [outcome_run_of_publicKey source, outcome_loadPublicKey holds]

theorem exists_run_of_publicNumbers
    {key : Rsa.PublicKey} (source : importer.source = .publicKey)
    (holds : files.HoldsBlock path (rsaForm parameters modulus exponent).encode)
    (allowed : AreParameters parameters)
    (short : (rsaForm parameters modulus exponent).encode.length < lengthLimit)
    (numbers : ArePublicNumbers modulus exponent key) :
    ∃ reader text, (importer.run files path).outcome = .ok reader ∧
      (∀ later version, (reader.key later version).outcome = .ok text) ∧
      Recorded.parse RsaPublicRecord text = .ok (.ofKey key) := by
  have outcome := outcome_run_of_publicBlock source holds
  rw [decodePublicKey_of_publicNumbers allowed short numbers] at outcome
  refine ⟨.ofPublicKey key importer.purpose, Recorded.serialize (RsaPublicRecord.ofKey key),
    outcome, ?_, ?_⟩
  · intro later version
    exact Reader.outcome_key_ofPublicKey later version importer.purpose key
  · exact Recorded.parse_serialize RsaPublicRecord.isFaithful_shape _

theorem exists_run_error_of_publicForm (source : importer.source = .publicKey)
    (holds : files.HoldsBlock path (rsaForm parameters modulus exponent).encode)
    (allowed : AreParameters parameters)
    (short : (rsaForm parameters modulus exponent).encode.length < lengthLimit)
    (notNumbers : ∀ key, ¬ArePublicNumbers modulus exponent key) :
    ∃ fault, (importer.run files path).outcome = .error (.rsa fault) := by
  have outcome := outcome_run_of_publicBlock source holds
  obtain ⟨fault, failed⟩ := exists_decodePublicKey_error allowed short notNumbers
  rw [failed] at outcome
  exact ⟨fault, outcome⟩

theorem outcome_run_of_refused (source : importer.source = .publicKey)
    (holds : files.HoldsBlock path (rsaForm parameters modulus exponent).encode)
    (refused : ¬(AreParameters parameters ∧
      (rsaForm parameters modulus exponent).encode.length < lengthLimit)) :
    (importer.run files path).outcome = .error .der := by
  have outcome := outcome_run_of_publicBlock source holds
  rw [decodePublicKey_rsaForm_of_refused refused] at outcome
  exact outcome

/-- Public key information for RSA that can be read is imported as a record that holds the two
numbers, if they make a key, and is refused otherwise. Information that cannot be read is refused
whatever the numbers are. -/
theorem record_of_publicForm (source : importer.source = .publicKey)
    (holds : files.HoldsBlock path (rsaForm parameters modulus exponent).encode) :
    (AreParameters parameters ∧
        (rsaForm parameters modulus exponent).encode.length < lengthLimit →
      (∀ key, ArePublicNumbers modulus exponent key →
        ∃ reader text record, (importer.run files path).outcome = .ok reader ∧
          (∀ later version, (reader.key later version).outcome = .ok text) ∧
          Recorded.parse RsaPublicRecord text = .ok record ∧ record.Describes key ∧
          ∀ bytes, WebSafe.decode record.modulus = .ok bytes →
            8 * (bytes.length - 1) < record.size.toNat ∧
              record.size.toNat ≤ 8 * bytes.length) ∧
      ((∀ key, ¬ArePublicNumbers modulus exponent key) →
        ∃ fault, (importer.run files path).outcome = .error (.rsa fault) ∧
          (StoreFault.rsa fault).kind = .parsing)) ∧
    (¬(AreParameters parameters ∧
        (rsaForm parameters modulus exponent).encode.length < lengthLimit) →
      (importer.run files path).outcome = .error .der) := by
  constructor
  · rintro ⟨allowed, short⟩
    constructor
    · intro key numbers
      obtain ⟨reader, text, outcome, same, parsed⟩ :=
        exists_run_of_publicNumbers source holds allowed short numbers
      have describes := RsaPublicRecord.describes_ofKey (Rsa.PublicKey.size_lt_of_le numbers.2.2)
      refine ⟨reader, text, .ofKey key, outcome, same, parsed, describes, ?_⟩
      intro bytes decoded
      rw [describes.size]
      exact describes.modulus.bitLength_bounds decoded
    · intro notNumbers
      obtain ⟨fault, failed⟩ :=
        exists_run_error_of_publicForm source holds allowed short notNumbers
      exact ⟨fault, failed, rfl⟩
  · intro refused
    exact outcome_run_of_refused source holds refused

end Record

theorem arePublicNumbers_fifteen : ∃ key : Rsa.PublicKey, ArePublicNumbers 15 3 key :=
  ⟨⟨15, 3, by decide⟩, rfl, rfl, by decide⟩

theorem record_of_publicForm_of_fifteen :
    publicKeyToVerify.source = .publicKey ∧
      ∃ files : FileAccess, files.HoldsBlock "key.pem" (rsaForm [] 15 3).encode ∧
        ∃ key reader text record, ArePublicNumbers 15 3 key ∧
          (publicKeyToVerify.run files "key.pem").outcome = .ok reader ∧
          (∀ later version, (reader.key later version).outcome = .ok text) ∧
          Recorded.parse RsaPublicRecord text = .ok record ∧ record.Describes key := by
  have holds := FileAccess.holdsBlock_holding (rsaForm [] 15 3).encode "key.pem"
  have short : (rsaForm [] 15 3).encode.length < lengthLimit := by
    decide +kernel
  obtain ⟨key, numbers⟩ := arePublicNumbers_fifteen
  have source : publicKeyToVerify.source = .publicKey := rfl
  have result := record_of_publicForm source holds
  obtain ⟨reader, text, record, outcome, same, parsed, describes, _⟩ :=
    (result.1 ⟨areParameters_nil, short⟩).1 key numbers
  exact ⟨source, _, holds, key, reader, text, record, numbers, outcome, same, parsed, describes⟩

/-- Not all parameters are passed over: those with an unknown tag are refused, and so are those that
are too long, although the two numbers make a key. -/
theorem not_all_parameters_are_imported :
    (∃ key : Rsa.PublicKey, ArePublicNumbers 15 3 key) ∧
    (∃ files : FileAccess,
      files.HoldsBlock "key.pem" (rsaForm (Element.encode ⟨0x0d, [1]⟩) 15 3).encode ∧
      (publicKeyToVerify.run files "key.pem").outcome = .error .der) ∧
    ∃ (files : FileAccess) (content : Bytes),
      files.HoldsBlock "key.pem" (rsaForm (Element.encode ⟨octetStringTag, content⟩) 15 3).encode ∧
      (publicKeyToVerify.run files "key.pem").outcome = .error .der := by
  have refused (parameters : Bytes) (bad : ¬(AreParameters parameters ∧
      (rsaForm parameters 15 3).encode.length < lengthLimit)) :
      ∃ files : FileAccess, files.HoldsBlock "key.pem" (rsaForm parameters 15 3).encode ∧
        (publicKeyToVerify.run files "key.pem").outcome = .error .der :=
    have holds := FileAccess.holdsBlock_holding (rsaForm parameters 15 3).encode "key.pem"
    ⟨_, holds, outcome_run_of_refused rfl holds bad⟩
  refine ⟨arePublicNumbers_fifteen, ?_, ?_⟩
  · refine refused _ fun fits => ?_
    obtain ⟨found, isForm, known⟩ := fits.1
    cases found with
    | none => exact absurd isForm (List.cons_ne_nil _ _)
    | some element =>
        have tag : 0x0d = element.tag := (List.cons.inj isForm).1
        have knownTag := known element rfl
        rw [← tag] at knownTag
        exact absurd knownTag (by decide)
  · have long : ¬(rsaForm (Element.encode ⟨octetStringTag, List.replicate lengthLimit 0⟩)
        15 3).encode.length < lengthLimit := by
      intro short
      have algorithm := PublicKeyInfo.algorithm_lt_form.trans short
      have content :=
        (Element.mk octetStringTag (List.replicate lengthLimit 0)).content_lt_encode
      rw [AlgorithmId.form, List.length_append] at algorithm
      rw [List.length_replicate] at content
      omega
    obtain ⟨files, holds, outcome⟩ := refused _ fun fits => long fits.2
    exact ⟨files, _, holds, outcome⟩

end Importer

end KeyStore
