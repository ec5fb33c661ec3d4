import KeyStore.Proofs.Der.Certificate
import KeyStore.Proofs.Import.PublicKey

/-!
# Importing the keys of certificates

A certificate is imported exactly as the public key information inside it: with the same key, or
with the same fault. Whatever is no certificate is refused.
-/

namespace KeyStore

open Log Der

section Outcomes

variable {files plain : FileAccess} {path plainPath : String}

theorem decodeCertifiedKey_encode (certificate : Certificate) :
    decodeCertifiedKey certificate.element.encode = decodePublicKey certificate.key.encode := by
  rw [decodeCertifiedKey, certificate.certifiedKey?_encode, decodePublicKey]

theorem outcome_loadCertifiedKey_of_certificate {certificate : Certificate}
    (holds : files.HoldsBlock path certificate.element.encode)
    (plainHolds : plain.HoldsBlock plainPath certificate.key.encode) :
    (loadCertifiedKey files path).outcome = (loadPublicKey plain plainPath).outcome := by
  rw [outcome_loadCertifiedKey holds, outcome_loadPublicKey plainHolds, decodeCertifiedKey_encode]

theorem outcome_loadCertifiedKey_of_noKey {contents : Bytes}
    (holds : files.HoldsBlock path contents) (noKey : certifiedKey? contents = none) :
    (loadCertifiedKey files path).outcome = .error .der := by
  rw [outcome_loadCertifiedKey holds, decodeCertifiedKey, noKey, rsaKeyOf]

/-- Two importers for one purpose agree if what they load agrees. -/
theorem Importer.outcome_run_of_same_key {certified uncertified : Importer}
    (fromCertificate : certified.source = .certificate) (fromKey : uncertified.source = .publicKey)
    (purpose : certified.purpose = uncertified.purpose)
    (same : (loadCertifiedKey files path).outcome = (loadPublicKey plain plainPath).outcome) :
    (certified.run files path).outcome = (uncertified.run plain plainPath).outcome := by
  rw [outcome_run_of_certificate fromCertificate, outcome_run_of_publicKey fromKey, same, purpose]

theorem Importer.outcome_run_of_noKey {importer : Importer} {contents : Bytes}
    (fromCertificate : importer.source = .certificate) (holds : files.HoldsBlock path contents)
    (noKey : certifiedKey? contents = none) :
    (importer.run files path).outcome = .error .der := by
  rw [outcome_run_of_certificate fromCertificate, outcome_loadCertifiedKey_of_noKey holds noKey]
  rfl

end Outcomes

namespace Importer

/-- Importing a certificate and importing its key have the same outcome, so both yield the same
metadata and the same key, or the same fault. A byte string that is no certificate is refused. -/
theorem certificate_agrees_with_publicKey (files plain : FileAccess) (path plainPath : String) :
    (∀ certificate : Certificate, files.HoldsBlock path certificate.element.encode →
      plain.HoldsBlock plainPath certificate.key.encode →
        (loadCertifiedKey files path).outcome = (loadPublicKey plain plainPath).outcome ∧
        (certificateToVerify.run files path).outcome =
          (publicKeyToVerify.run plain plainPath).outcome ∧
        (certificateToCrypt.run files path).outcome =
          (publicKeyToEncrypt.run plain plainPath).outcome) ∧
    (∀ contents, files.HoldsBlock path contents →
      (∀ certificate : Certificate, contents ≠ certificate.element.encode) →
        (loadCertifiedKey files path).outcome = .error .der ∧
        (certificateToVerify.run files path).outcome = .error .der ∧
        (certificateToCrypt.run files path).outcome = .error .der) := by
  constructor
  · intro certificate holds plainHolds
    have same := outcome_loadCertifiedKey_of_certificate holds plainHolds
    refine ⟨same, ?_, ?_⟩
    · exact outcome_run_of_same_key rfl rfl rfl same
    · exact outcome_run_of_same_key rfl rfl rfl same
  · intro contents holds noCertificate
    have noKey := certifiedKey?_eq_none noCertificate
    refine ⟨outcome_loadCertifiedKey_of_noKey holds noKey, ?_, ?_⟩
    · exact outcome_run_of_noKey rfl holds noKey
    · exact outcome_run_of_noKey rfl holds noKey

/-- The element of the first second of a year, which is written with two digits. -/
def newYear (tens ones : UInt8) : Element :=
  ⟨utcTimeTag,
    [tens, ones, 0x30, 0x31, 0x30, 0x31, 0x30, 0x30, 0x30, 0x30, 0x30, 0x30, 0x5a]⟩

def commonName (text : Bytes) : Element :=
  .ofParts sequenceTag
    [.ofParts setTag
      [.ofParts sequenceTag [⟨objectIdTag, [0x55, 0x04, 0x03]⟩, ⟨0x0c, text⟩]]]

/-- The element of the algorithm that signs with RSA and a digest of 256 bits. -/
def signatureAlgorithm : Element :=
  .ofParts sequenceTag
    [⟨objectIdTag, [0x2a, 0x86, 0x48, 0x86, 0xf7, 0x0d, 0x01, 0x01, 0x0b]⟩, ⟨0x05, []⟩]

/-- The element of extensions that are only the basic constraints, which are left at their
defaults. -/
def basicConstraints : Element :=
  .ofParts (contextTag 3)
    [.ofParts sequenceTag
      [.ofParts sequenceTag
        [⟨objectIdTag, [0x55, 0x1d, 0x13]⟩, ⟨octetStringTag, [0x30, 0x00]⟩]]]

/-- The parts of a certificate of the third version for the key of fifteen and three, which ends
with the year 2032. -/
def partsOfFifteen (start : Element) (signatureValue : Bytes) : CertificateParts where
  version := some (.ofParts (contextTag 0) [.ofInt 2])
  serial := .ofInt 1
  signature := signatureAlgorithm
  issuer := commonName [0x74]
  validity := .ofParts sequenceTag [start, newYear 0x33 0x33]
  subject := commonName [0x74]
  key := rsaForm [] 15 3
  trailer := [basicConstraints]
  algorithm := signatureAlgorithm
  signatureValue := .ofBits signatureValue

def certificateOfFifteen : Certificate where
  toCertificateParts := partsOfFifteen (newYear 0x32 0x34) [1]
  version_valid := by decide +kernel
  serial_valid := by decide +kernel
  signature_valid := by decide +kernel
  issuer_valid := by decide +kernel
  validity_valid := by decide +kernel
  subject_valid := by decide +kernel
  key_known := by decide +kernel
  trailer_valid := by decide +kernel
  algorithm_valid := by decide +kernel
  signatureValue_valid := by decide +kernel
  short := by decide +kernel

/-- The key of fifteen and three is imported from its public key information. -/
theorem exists_run_of_fifteen :
    ∃ reader, (publicKeyToVerify.run (.holding (rsaForm [] 15 3).encode) "key.pem").outcome =
      .ok reader := by
  have source : publicKeyToVerify.source = .publicKey := rfl
  have short : (rsaForm [] 15 3).encode.length < lengthLimit := by
    decide +kernel
  obtain ⟨key, numbers⟩ := arePublicNumbers_fifteen
  have outcome := outcome_run_of_publicBlock source
    (FileAccess.holdsBlock_holding (rsaForm [] 15 3).encode "key.pem")
  rw [decodePublicKey_of_publicNumbers areParameters_nil short numbers] at outcome
  exact ⟨_, outcome⟩

theorem certificate_agrees_with_publicKey_of_fifteen :
    ∃ files plain : FileAccess,
      files.HoldsBlock "cert.pem" certificateOfFifteen.element.encode ∧
      plain.HoldsBlock "key.pem" certificateOfFifteen.key.encode ∧
      (certificateToVerify.run files "cert.pem").outcome =
        (publicKeyToVerify.run plain "key.pem").outcome ∧
      ∃ reader, (publicKeyToVerify.run plain "key.pem").outcome = .ok reader := by
  have holds := FileAccess.holdsBlock_holding certificateOfFifteen.element.encode "cert.pem"
  have plainHolds := FileAccess.holdsBlock_holding certificateOfFifteen.key.encode "key.pem"
  obtain ⟨agree, _⟩ := certificate_agrees_with_publicKey _ _ "cert.pem" "key.pem"
  obtain ⟨_, verify, _⟩ := agree certificateOfFifteen holds plainHolds
  exact ⟨_, _, holds, plainHolds, verify, exists_run_of_fifteen⟩

/-- Not every certificate is read: one that starts with the year 1950 is refused, and so is one that
is too long, although the key inside is imported from its public key information. -/
theorem not_all_certificates_are_imported :
    (∃ plain : FileAccess, plain.HoldsBlock "key.pem" (rsaForm [] 15 3).encode ∧
      ∃ reader, (publicKeyToVerify.run plain "key.pem").outcome = .ok reader) ∧
    (∃ files : FileAccess,
      files.HoldsBlock "cert.pem" (partsOfFifteen (newYear 0x35 0x30) [1]).element.encode ∧
      (certificateToVerify.run files "cert.pem").outcome = .error .der) ∧
    ∃ (files : FileAccess) (signatureValue : Bytes),
      files.HoldsBlock "cert.pem"
        (partsOfFifteen (newYear 0x32 0x34) signatureValue).element.encode ∧
      (certificateToVerify.run files "cert.pem").outcome = .error .der := by
  have refused (parts : CertificateParts) (noKey : certifiedKey? parts.element.encode = none) :
      ∃ files : FileAccess, files.HoldsBlock "cert.pem" parts.element.encode ∧
        (certificateToVerify.run files "cert.pem").outcome = .error .der :=
    have holds := FileAccess.holdsBlock_holding parts.element.encode "cert.pem"
    ⟨_, holds, outcome_run_of_noKey rfl holds noKey⟩
  refine ⟨⟨_, FileAccess.holdsBlock_holding _ _, exists_run_of_fifteen⟩, ?_, ?_⟩
  · refine refused _ (Option.isNone_iff_eq_none.mp ?_)
    decide +kernel
  · have long : ¬(partsOfFifteen (newYear 0x32 0x34)
        (List.replicate lengthLimit 0)).element.encode.length < lengthLimit := by
      have signatureValue := (partsOfFifteen (newYear 0x32 0x34)
        (List.replicate lengthLimit 0)).signatureValue_lt_element
      have bits := Element.length_lt_ofBits (List.replicate lengthLimit 0)
      rw [List.length_replicate] at bits
      exact Nat.not_lt.mpr (bits.trans signatureValue).le
    obtain ⟨files, holds, outcome⟩ := refused _ (certifiedKey?_of_long long)
    exact ⟨files, _, holds, outcome⟩

end Importer

end KeyStore
