import KeyStore.Proofs.Import.KeyRecords
import KeyStore.Proofs.Import.Loading
import KeyStore.Proofs.Rsa.Encoding

/-!
# Importing private keys

A file with the form of a private key is imported as the record of that key, whatever natural
numbers it has in place of those for the Chinese remainder theorem. The coefficient in the record
is right if there is one, which the conditions on a key do not ensure.
-/

namespace KeyStore

open Log Der Rsa

section Outcomes

variable {importer : Importer} {files : FileAccess} {path : String}

theorem decodePrivateKey_eq_ok_iff {payload : Bytes} {key : Rsa.PrivateKey} :
    decodePrivateKey payload = .ok key ↔ Rsa.PrivateKey.decode payload = .ok key := by
  rw [decodePrivateKey]
  split
  · next found decoded => rw [decoded, Except.ok.injEq, Except.ok.injEq]
  · next fault decoded =>
      rw [decoded]
      exact ⟨fun impossible => by contradiction, fun impossible => by contradiction⟩

theorem decodePrivateKey_form (key : Rsa.PrivateKey) (x y z : Int) :
    decodePrivateKey (key.form x y z).encode =
      if 0 ≤ x ∧ 0 ≤ y ∧ 0 ≤ z ∧ (key.form x y z).encode.length < lengthLimit then
        .ok key
      else
        .error (.rsa .privateForm) := by
  rw [decodePrivateKey, key.decode_form]
  by_cases fits : 0 ≤ x ∧ 0 ≤ y ∧ 0 ≤ z ∧ (key.form x y z).encode.length < lengthLimit
  · rw [if_pos fits, if_pos fits]
  · rw [if_neg fits, if_neg fits]

theorem Importer.outcome_run_of_privateForm {key : Rsa.PrivateKey} {x y z : Int}
    (source : importer.source = .privateKey)
    (holds : files.HoldsBlock path (key.form x y z).encode) :
    (importer.run files path).outcome =
      if 0 ≤ x ∧ 0 ≤ y ∧ 0 ≤ z ∧ (key.form x y z).encode.length < lengthLimit then
        .ok (.ofPrivateKey key importer.purpose)
      else
        .error (.rsa .privateForm) := by
  rw [outcome_run_of_privateKey source, outcome_loadPrivateKey holds, decodePrivateKey_form,
    apply_ite (Except.map _)]
  rfl

/-- Every import of a private key that succeeds makes a store around the key that is loaded. -/
theorem Importer.exists_privateKey_of_run
    {reader : Reader} (source : importer.source = .privateKey)
    (accepted : (importer.run files path).outcome = .ok reader) :
    ∃ key, (loadPrivateKey files path).outcome = .ok key ∧
      reader = .ofPrivateKey key importer.purpose := by
  rw [outcome_run_of_privateKey source] at accepted
  obtain ⟨key, loaded, made⟩ := exists_of_map_eq_ok accepted
  exact ⟨key, loaded, made.symm⟩

end Outcomes

namespace Importer

/-- The form of a private key is imported as one text, which holds the numbers of the key. The text
does not depend on the numbers in place of those for the Chinese remainder theorem. If one of them
is negative, or the form is too long, the import fails. -/
theorem record_of_privateForm (key : Rsa.PrivateKey) :
    ∃ text, ∀ (importer : Importer) (files : FileAccess) (path : String) (x y z : Int),
      importer.source = .privateKey → files.HoldsBlock path (key.form x y z).encode →
        if 0 ≤ x ∧ 0 ≤ y ∧ 0 ≤ z ∧ (key.form x y z).encode.length < lengthLimit then
          ∃ reader record, (importer.run files path).outcome = .ok reader ∧
            (∀ later version, (reader.key later version).outcome = .ok text) ∧
            Recorded.parse RsaPrivateRecord text = .ok record ∧ record.Describes key ∧
            0 < key.exponent % (key.p - 1) ∧ 0 < key.exponent % (key.q - 1)
        else
          (importer.run files path).outcome = .error (.rsa .privateForm) := by
  refine ⟨Recorded.serialize (RsaPrivateRecord.ofKey key), ?_⟩
  intro importer files path x y z source holds
  have outcome := outcome_run_of_privateForm source holds
  by_cases fits : 0 ≤ x ∧ 0 ≤ y ∧ 0 ≤ z ∧ (key.form x y z).encode.length < lengthLimit
  · rw [if_pos fits] at outcome ⊢
    have counted := Rsa.PrivateKey.size_lt_of_short fits.2.2.2
    refine ⟨.ofPrivateKey key importer.purpose, .ofKey key, outcome, ?_, ?_, ?_, ?_⟩
    · intro later version
      exact Reader.outcome_key_ofPrivateKey later version importer.purpose key
    · exact Recorded.parse_serialize RsaPrivateRecord.isFaithful_shape _
    · exact RsaPrivateRecord.describes_ofKey counted
    · exact ⟨(Rsa.PrivateKey.exponent_mod_bounds key.p_mem_factors).1,
        (Rsa.PrivateKey.exponent_mod_bounds key.q_mem_factors).1⟩
  · rw [if_neg fits] at outcome ⊢
    exact outcome

def keyOfThreeAndFive : Rsa.PrivateKey where
  publicKey := ⟨15, 3, by decide⟩
  exponent := 3
  p := 3
  q := 5
  isPrivatePart := by decide

theorem record_of_privateForm_of_three_and_five :
    privateKeyToSign.source = .privateKey ∧
      ∃ files : FileAccess,
        files.HoldsBlock "key.pem" (keyOfThreeAndFive.form 7 200 0).encode ∧
        ∃ reader record text, (privateKeyToSign.run files "key.pem").outcome = .ok reader ∧
          (∀ later version, (reader.key later version).outcome = .ok text) ∧
          Recorded.parse RsaPrivateRecord text = .ok record ∧
          record.Describes keyOfThreeAndFive := by
  have holds := FileAccess.holdsBlock_holding
    (keyOfThreeAndFive.form 7 200 0).encode "key.pem"
  have short : (keyOfThreeAndFive.form 7 200 0).encode.length < lengthLimit := by
    decide +kernel
  obtain ⟨text, imported⟩ := record_of_privateForm keyOfThreeAndFive
  have result := imported .privateKeyToSign _ "key.pem" 7 200 0 rfl holds
  rw [if_pos ⟨by decide, by decide, by decide, short⟩] at result
  obtain ⟨reader, record, outcome, same, parsed, describes, _⟩ := result
  exact ⟨rfl, _, holds, reader, record, text, outcome, same, parsed, describes⟩

/-- Not all integers may stand in place of the numbers for the Chinese remainder theorem: a negative
one is refused, and so is a natural number that is too long. -/
theorem not_all_forms_are_imported :
    (∃ files : FileAccess,
      files.HoldsBlock "key.pem" (keyOfThreeAndFive.form (-1) 1 2).encode ∧
      (privateKeyToSign.run files "key.pem").outcome = .error (.rsa .privateForm)) ∧
    ∃ (files : FileAccess) (number : Nat),
      files.HoldsBlock "key.pem" (keyOfThreeAndFive.form number 1 2).encode ∧
      (privateKeyToSign.run files "key.pem").outcome = .error (.rsa .privateForm) := by
  have refused (x : Int) (bad : ¬(0 ≤ x ∧
      (keyOfThreeAndFive.form x 1 2).encode.length < lengthLimit)) :
      (privateKeyToSign.run (.holding (keyOfThreeAndFive.form x 1 2).encode)
        "key.pem").outcome = .error (.rsa .privateForm) := by
    rw [outcome_run_of_privateForm rfl (FileAccess.holdsBlock_holding _ _),
      if_neg fun fits => bad ⟨fits.1, fits.2.2.2⟩]
  constructor
  · exact ⟨_, FileAccess.holdsBlock_holding _ _, refused (-1) fun fits => absurd fits.1 (by decide)⟩
  · obtain ⟨number, long⟩ := Element.exists_le_length_ofInt lengthLimit
    refine ⟨_, number, FileAccess.holdsBlock_holding _ _, refused number fun fits => ?_⟩
    have part : (Element.ofInt number).content.length <
        (keyOfThreeAndFive.form number 1 2).content.length :=
      Element.content_lt_ofParts sequenceTag (by simp)
    have below := (keyOfThreeAndFive.form number 1 2).content_lt_encode
    omega

/-- The coefficient in the record of an imported private key is the inverse of the second factor
modulo the first if the factors have no common divisor, and is otherwise written as a zero byte. -/
theorem coefficient_of_private_record {importer : Importer} {files : FileAccess} {path : String}
    {reader : Reader} (source : importer.source = .privateKey)
    (accepted : (importer.run files path).outcome = .ok reader) :
    ∃ text record p q,
      (∀ later version, (reader.key later version).outcome = .ok text) ∧
      Recorded.parse RsaPrivateRecord text = .ok record ∧
      HoldsNumber record.primeP p ∧ HoldsNumber record.primeQ q ∧
      (p.Coprime q → ∃ coefficient, HoldsNumber record.crtCoefficient coefficient ∧
        1 ≤ coefficient ∧ coefficient < p ∧ coefficient * q % p = 1) ∧
      (¬p.Coprime q → WebSafe.decode record.crtCoefficient = .ok [0]) := by
  obtain ⟨key, _, rfl⟩ := exists_privateKey_of_run source accepted
  refine ⟨Recorded.serialize (RsaPrivateRecord.ofKey key), .ofKey key, key.p, key.q, ?_, ?_, ?_, ?_,
    ?_, ?_⟩
  · intro later version
    exact Reader.outcome_key_ofPrivateKey later version importer.purpose key
  · exact Recorded.parse_serialize RsaPrivateRecord.isFaithful_shape _
  · exact holdsNumber_factor key.p_mem_factors
  · exact holdsNumber_factor key.q_mem_factors
  · intro coprime
    exact RsaPrivateRecord.exists_holdsNumber_coefficient coprime
  · intro common
    exact RsaPrivateRecord.decode_crtCoefficient_of_not_coprime common

def keyOfElevenTwice : Rsa.PrivateKey where
  publicKey := ⟨121, 3, by decide⟩
  exponent := 7
  p := 11
  q := 11
  isPrivatePart := by decide

/-- A key whose factors are both eleven is imported, and its record has no coefficient. -/
theorem coefficient_of_eleven_twice :
    ∃ (files : FileAccess) (reader : Reader) (text : String) (record : RsaPrivateRecord),
      files.HoldsBlock "key.pem" (keyOfElevenTwice.form 7 7 0).encode ∧
      (privateKeyToSign.run files "key.pem").outcome = .ok reader ∧
      (∀ later version, (reader.key later version).outcome = .ok text) ∧
      Recorded.parse RsaPrivateRecord text = .ok record ∧
      HoldsNumber record.primeP 11 ∧ HoldsNumber record.primeQ 11 ∧
      WebSafe.decode record.crtCoefficient = .ok [0] := by
  have short : (keyOfElevenTwice.form 7 7 0).encode.length < lengthLimit := by
    decide +kernel
  have holds := FileAccess.holdsBlock_holding
    (keyOfElevenTwice.form 7 7 0).encode "key.pem"
  have source : privateKeyToSign.source = .privateKey := rfl
  have accepted := outcome_run_of_privateForm source holds
  rw [if_pos ⟨by decide, by decide, by decide, short⟩] at accepted
  obtain ⟨text, record, p, q, same, parsed, holdsP, holdsQ, _, zero⟩ :=
    coefficient_of_private_record source accepted
  have written : text = Recorded.serialize (RsaPrivateRecord.ofKey keyOfElevenTwice) :=
    Except.ok.inj ((same (.holding []) 1).symm.trans (Reader.outcome_key_ofPrivateKey _ 1 _ _))
  rw [written, Recorded.parse_serialize RsaPrivateRecord.isFaithful_shape] at parsed
  obtain rfl := Except.ok.inj parsed
  obtain rfl := holdsP.unique (holdsNumber_factor keyOfElevenTwice.p_mem_factors)
  obtain rfl := holdsQ.unique (holdsNumber_factor keyOfElevenTwice.q_mem_factors)
  exact ⟨_, _, text, _, holds, accepted, same,
    written ▸ Recorded.parse_serialize RsaPrivateRecord.isFaithful_shape _, holdsP, holdsQ,
    zero (by decide)⟩

end Importer

end KeyStore
