import KeyStore.Proofs.Import.PrivateKey
import KeyStore.Proofs.Import.PublicKey
import KeyStore.Proofs.Record.CanonicalText

/-!
# The two halves of a key pair

What the public importers make of the public half of an imported private key: the public key in the
record of the private one, unless the modulus is too long for a public key. Importers of one source
make stores that differ in the purpose and in nothing else.
-/

namespace KeyStore

open Log Der Rsa

/-- The bytes that usually stand behind the algorithm of RSA keys: none, or those of a null. -/
def usualParameters : List Bytes :=
  [[], Element.encode ⟨0x05, []⟩]

section Length

variable {parameters : Bytes}

theorem areParameters_of_usual
    (usual : parameters ∈ usualParameters) :
    AreParameters parameters := by
  rcases List.mem_pair.mp usual with rfl | rfl
  · exact areParameters_nil
  · have known : IsKnownTag 0x05 := by
      decide
    refine ⟨some ⟨0x05, []⟩, rfl, ?_⟩
    rintro _ ⟨⟩
    exact known

theorem length_algorithm_of_usual
    (usual : parameters ∈ usualParameters) :
    (AlgorithmId.form .rsaEncryption parameters).encode.length ≤ 15 := by
  rcases List.mem_pair.mp usual with rfl | rfl
  · decide +kernel
  · decide +kernel

/-- Usual public key information takes up to 34 bytes more than its two numbers. -/
theorem length_rsaForm_lt
    {modulus exponent : Int} (usual : parameters ∈ usualParameters)
    (room : (publicForm modulus exponent).content.length + 34 < lengthLimit) :
    (rsaForm parameters modulus exponent).encode.length < lengthLimit := by
  have algorithm := length_algorithm_of_usual usual
  have numbers : (publicForm modulus exponent).encode.length ≤
      (publicForm modulus exponent).content.length + 6 :=
    Element.length_encode_le (by omega)
  have bits : (Element.ofBits (publicForm modulus exponent).encode).content.length =
      (publicForm modulus exponent).encode.length + 1 :=
    rfl
  have bitString : (Element.ofBits (publicForm modulus exponent).encode).encode.length ≤
      (Element.ofBits (publicForm modulus exponent).encode).content.length + 6 :=
    Element.length_encode_le (by omega)
  have content : (rsaForm parameters modulus exponent).content.length =
      (AlgorithmId.form .rsaEncryption parameters).encode.length +
        (Element.ofBits (publicForm modulus exponent).encode).encode.length := by
    simp [rsaForm, PublicKeyInfo.form, Element.ofParts, encodeAll]
  have whole : (rsaForm parameters modulus exponent).encode.length ≤
      (rsaForm parameters modulus exponent).content.length + 6 :=
    Element.length_encode_le (by omega)
  omega

/-- The integers of a public key that fit in a width are not longer than twice that. -/
theorem length_publicForm_le
    {key : Rsa.PublicKey} {width : Nat} (positive : 0 < width) (few : width + 1 < lengthLimit)
    (size : key.size ≤ 8 * width) :
    (publicForm key.modulus key.exponent).content.length ≤ 2 * (width + 7) := by
  have modulus : key.modulus < 256 ^ width := lt_pow_of_bitLength_le size
  have exponent : key.exponent < 256 ^ width := key.isPublicPair.1.trans modulus
  have small : ∀ number ∈ [key.modulus, key.exponent], number < 256 ^ width :=
    List.forall_mem_cons.mpr ⟨modulus, List.forall_mem_singleton.mpr exponent⟩
  exact Element.length_encodeAll_ofInt_le positive few small

theorem length_rsaForm_of_size_le
    {key : Rsa.PublicKey} (usual : parameters ∈ usualParameters) (size : key.size ≤ maxSize) :
    (rsaForm parameters key.modulus key.exponent).encode.length < lengthLimit := by
  have numbers : (publicForm key.modulus key.exponent).content.length ≤ 2 * (512 + 7) :=
    length_publicForm_le (by decide) (by decide) size
  have room : 2 * (512 + 7) + 34 < lengthLimit := by
    decide
  exact length_rsaForm_lt usual (by omega)

/-- A long modulus leaves room in the form of a private key: its factors take more bytes than public
key information adds to the two numbers. -/
theorem length_rsaForm_of_large
    {key : Rsa.PrivateKey} {x y z : Int} (usual : parameters ∈ usualParameters)
    (large : maxSize < key.publicKey.size)
    (short : (key.form x y z).encode.length < lengthLimit) :
    (rsaForm parameters key.publicKey.modulus key.publicKey.exponent).encode.length <
      lengthLimit := by
  have factors : key.publicKey.size ≤ bitLength key.p + bitLength key.q := by
    rw [Rsa.PublicKey.size, ← key.isPrivatePart.2.2.1]
    exact bitLength_mul_le key.p key.q
  have first := Element.bitLength_le_ofInt key.p
  have second := Element.bitLength_le_ofInt key.q
  have firstBytes := (Element.ofInt key.p).content_lt_encode
  have secondBytes := (Element.ofInt key.q).content_lt_encode
  have inside := (key.form x y z).content_lt_encode
  have parts : (publicForm key.publicKey.modulus key.publicKey.exponent).content.length +
      (Element.ofInt key.p).encode.length + (Element.ofInt key.q).encode.length ≤
        (key.form x y z).content.length := by
    simp only [Rsa.PrivateKey.form, publicForm, Element.ofParts, encodeAll, List.flatMap_cons,
      List.flatMap_nil, List.length_append, List.length_nil]
    omega
  have bits : maxSize = 4096 := rfl
  exact length_rsaForm_lt usual (by omega)

end Length

/-- The public importers make a record of public key information about a key if the modulus is not
too long, and refuse the key otherwise. They read the usual information about it in any case. -/
structure PublicImportsYield (key : Rsa.PublicKey) (record : RsaPublicRecord) : Prop where
  usual : ∀ parameters ∈ usualParameters, AreParameters parameters ∧
    (rsaForm parameters key.modulus key.exponent).encode.length < lengthLimit
  outcome : ∀ (importer : Importer) (files : FileAccess) (path : String) (parameters : Bytes),
    importer.source = .publicKey →
    files.HoldsBlock path (rsaForm parameters key.modulus key.exponent).encode →
    AreParameters parameters →
    (rsaForm parameters key.modulus key.exponent).encode.length < lengthLimit →
    if key.size ≤ maxSize then
      ∃ reader text, (importer.run files path).outcome = .ok reader ∧
        (∀ later version, (reader.key later version).outcome = .ok text) ∧
        Recorded.parse RsaPublicRecord text = .ok record
    else
      (importer.run files path).outcome = .error (.rsa .publicNumbers)

section PublicHalf

variable {importer : Importer} {files : FileAccess} {path : String} {parameters : Bytes}

theorem Importer.outcome_run_of_large
    {key : Rsa.PublicKey} (source : importer.source = .publicKey)
    (holds : files.HoldsBlock path (rsaForm parameters key.modulus key.exponent).encode)
    (allowed : AreParameters parameters)
    (short : (rsaForm parameters key.modulus key.exponent).encode.length < lengthLimit)
    (large : maxSize < key.size) :
    (importer.run files path).outcome = .error (.rsa .publicNumbers) := by
  have inside : (publicForm key.modulus key.exponent).encode.length < lengthLimit :=
    PublicKeyInfo.key_lt_form.trans short
  have refused := Rsa.PublicKey.decode_publicForm_of_large large inside
  rw [outcome_run_of_publicBlock source holds, decodePublicKey_rsaForm allowed short, refused]
  rfl

/-- What is read as a private key determines what the public importers make of its public half. -/
theorem publicImportsYield_of_decodePrivateKey
    {payload : Bytes} {key : Rsa.PrivateKey} (read : decodePrivateKey payload = .ok key) :
    (RsaPrivateRecord.ofKey key).Describes key ∧
      PublicImportsYield key.publicKey (RsaPrivateRecord.ofKey key).publicKey := by
  have decoded := decodePrivateKey_eq_ok_iff.mp read
  obtain ⟨x, y, z, rfl, short⟩ := Rsa.PrivateKey.decode_eq_ok_iff.mp decoded
  refine ⟨RsaPrivateRecord.describes_ofKey (Rsa.PrivateKey.size_lt_of_short short), ?_, ?_⟩
  · intro parameters usual
    refine ⟨areParameters_of_usual usual, ?_⟩
    by_cases size : key.publicKey.size ≤ maxSize
    · exact length_rsaForm_of_size_le usual size
    · exact length_rsaForm_of_large usual (Nat.not_le.mp size) short
  · intro importer files path parameters source holds allowed publicShort
    by_cases size : key.publicKey.size ≤ maxSize
    · rw [if_pos size]
      have numbers : ArePublicNumbers key.publicKey.modulus key.publicKey.exponent key.publicKey :=
        ⟨rfl, rfl, size⟩
      exact Importer.exists_run_of_publicNumbers source holds allowed publicShort numbers
    · rw [if_neg size]
      exact Importer.outcome_run_of_large source holds allowed publicShort (Nat.not_le.mp size)

end PublicHalf

/-- Two stores have one text as the key of every version, and their metadata differs in the purpose
and in nothing else. -/
structure Reader.DifferInPurpose (left right : Reader) : Prop where
  key : ∃ text, ∀ files version, (left.key files version).outcome = .ok text ∧
    (right.key files version).outcome = .ok text
  metadata : ∃ leftText rightText leftMetadata rightMetadata,
    (∀ files, (left.metadata files).outcome = .ok leftText ∧
      (right.metadata files).outcome = .ok rightText) ∧
    Recorded.parse KeyMetadata leftText = .ok leftMetadata ∧
    Recorded.parse KeyMetadata rightText = .ok rightMetadata ∧
    leftMetadata.purpose ≠ rightMetadata.purpose ∧
    { leftMetadata with purpose := rightMetadata.purpose } = rightMetadata

theorem Reader.differInPurpose_imported
    (name : String) (keyType : KeyType) (key : KeyRecord) {left right : KeyPurpose}
    (different : left ≠ right) :
    DifferInPurpose (.imported (.imported name keyType left) key)
      (.imported (.imported name keyType right) key) := by
  have parsed (purpose : KeyPurpose) :=
    Recorded.parse_serialize KeyMetadata.isFaithful_shape (.imported name keyType purpose)
  constructor
  · exact ⟨key.serialize, fun files version => ⟨rfl, rfl⟩⟩
  · exact ⟨_, _, .imported name keyType left, .imported name keyType right,
      fun files => ⟨rfl, rfl⟩, parsed left, parsed right, different, rfl⟩

namespace Importer

/-- Two imports fail for the same reason, or make stores that differ in the purpose. -/
inductive AgreeUpToPurpose : Except StoreFault Reader → Except StoreFault Reader → Prop
  | refused (fault : StoreFault) : AgreeUpToPurpose (.error fault) (.error fault)
  | made {left right : Reader} : left.DifferInPurpose right →
      AgreeUpToPurpose (.ok left) (.ok right)

theorem eq_of_source_of_purpose
    {left right : Importer} (sameSource : left.source = right.source)
    (samePurpose : left.purpose = right.purpose) :
    left = right := by
  revert sameSource samePurpose
  cases left <;> cases right <;> decide

theorem agreeUpToPurpose_map
    {Key : Type} (loaded : Except StoreFault Key) {left right : Key → Reader}
    (differ : ∀ key, (left key).DifferInPurpose (right key)) :
    AgreeUpToPurpose (loaded.map left) (loaded.map right) := by
  cases loaded with
  | error fault =>
      exact .refused fault
  | ok key =>
      exact .made (differ key)

theorem agreeUpToPurpose_run
    {left right : Importer} (sameSource : left.source = right.source) (different : left ≠ right)
    (files : FileAccess) (path : String) :
    AgreeUpToPurpose (left.run files path).outcome (right.run files path).outcome := by
  have purposes : left.purpose ≠ right.purpose :=
    fun same => different (eq_of_source_of_purpose sameSource same)
  cases source : left.source with
  | privateKey =>
      rw [outcome_run_of_privateKey source, outcome_run_of_privateKey (sameSource ▸ source)]
      exact agreeUpToPurpose_map _ fun key => Reader.differInPurpose_imported _ _ _ purposes
  | publicKey =>
      rw [outcome_run_of_publicKey source, outcome_run_of_publicKey (sameSource ▸ source)]
      exact agreeUpToPurpose_map _ fun key => Reader.differInPurpose_imported _ _ _ purposes
  | certificate =>
      rw [outcome_run_of_certificate source, outcome_run_of_certificate (sameSource ▸ source)]
      exact agreeUpToPurpose_map _ fun key => Reader.differInPurpose_imported _ _ _ purposes

end Importer

/-! ## Key pairs -/

namespace Importer

/-- The public importers make of the public half of an imported private key the public key in its
record, or refuse it because the modulus is too long. Two importers of one source make stores of one
file that differ in the purpose only. -/
theorem key_pair_imports_agree :
    (∀ (importer : Importer) (files : FileAccess) (path : String) (reader : Reader),
      importer.source = .privateKey → (importer.run files path).outcome = .ok reader →
      ∃ key text record, (loadPrivateKey files path).outcome = .ok key ∧
        (∀ later version, (reader.key later version).outcome = .ok text) ∧
        Recorded.parse RsaPrivateRecord text = .ok record ∧ record.Describes key ∧
        PublicImportsYield key.publicKey record.publicKey) ∧
    ∀ (left right : Importer) (files : FileAccess) (path : String),
      left.source = right.source → left ≠ right →
      AgreeUpToPurpose (left.run files path).outcome (right.run files path).outcome := by
  constructor
  · intro importer files path reader source accepted
    obtain ⟨key, loaded, rfl⟩ := exists_privateKey_of_run source accepted
    obtain ⟨payload, _, read⟩ := exists_decodePrivateKey_of_load loaded
    obtain ⟨describes, yields⟩ := publicImportsYield_of_decodePrivateKey read
    refine ⟨key, Recorded.serialize (RsaPrivateRecord.ofKey key), .ofKey key, loaded, ?_, ?_,
      describes, yields⟩
    · intro later version
      exact Reader.outcome_key_ofPrivateKey later version importer.purpose key
    · exact Recorded.parse_serialize RsaPrivateRecord.isFaithful_shape _
  · intro left right files path sameSource different
    exact agreeUpToPurpose_run sameSource different files path

/-- The key of three and five is imported as a private key, its public half is imported with the
same record, and the other importer of private keys makes a store that differs in the purpose. -/
theorem key_pair_of_three_and_five :
    ∃ (files publicFiles : FileAccess) (reader other : Reader) (record : RsaPrivateRecord),
      files.HoldsBlock "key.pem" (keyOfThreeAndFive.form 7 200 0).encode ∧
      (privateKeyToSign.run files "key.pem").outcome = .ok reader ∧
      (privateKeyToCrypt.run files "key.pem").outcome = .ok other ∧
      reader.DifferInPurpose other ∧ record.Describes keyOfThreeAndFive ∧
      publicFiles.HoldsBlock "key.pem" (rsaForm [] 15 3).encode ∧
      ∃ publicReader text,
        (publicKeyToVerify.run publicFiles "key.pem").outcome = .ok publicReader ∧
        (∀ later version, (publicReader.key later version).outcome = .ok text) ∧
        Recorded.parse RsaPublicRecord text = .ok record.publicKey := by
  have short : (keyOfThreeAndFive.form 7 200 0).encode.length < lengthLimit := by
    decide +kernel
  have holds := FileAccess.holdsBlock_holding (keyOfThreeAndFive.form 7 200 0).encode "key.pem"
  have publicHolds := FileAccess.holdsBlock_holding (rsaForm [] 15 3).encode "key.pem"
  have runs (importer : Importer) (source : importer.source = .privateKey) :
      (importer.run (.holding (keyOfThreeAndFive.form 7 200 0).encode) "key.pem").outcome =
        .ok (.ofPrivateKey keyOfThreeAndFive importer.purpose) := by
    rw [outcome_run_of_privateForm source holds,
      if_pos ⟨by decide, by decide, by decide, short⟩]
  obtain ⟨key, text, record, loaded, same, parsed, describes, yields⟩ :=
    key_pair_imports_agree.1 privateKeyToSign _ "key.pem" _ rfl (runs privateKeyToSign rfl)
  have expected := outcome_loadPrivateKey holds
  rw [decodePrivateKey_form, if_pos ⟨by decide, by decide, by decide, short⟩] at expected
  obtain rfl := Except.ok.inj (expected.symm.trans loaded)
  have usual : [] ∈ usualParameters := List.mem_cons_self
  have size : keyOfThreeAndFive.publicKey.size ≤ maxSize := by
    decide
  have half := yields.outcome publicKeyToVerify _ "key.pem" [] rfl publicHolds
    (yields.usual [] usual).1 (yields.usual [] usual).2
  rw [if_pos size] at half
  have agree := key_pair_imports_agree.2 privateKeyToSign privateKeyToCrypt
    (.holding (keyOfThreeAndFive.form 7 200 0).encode) "key.pem" rfl (by decide)
  rw [runs privateKeyToSign rfl, runs privateKeyToCrypt rfl] at agree
  cases agree with
  | made differ =>
      exact ⟨_, _, _, _, record, holds, runs privateKeyToSign rfl, runs privateKeyToCrypt rfl,
        differ, describes, publicHolds, half⟩

/-! ## A key that is too long -/

/-- One more than a power of two. -/
def longFactor (width : Nat) : Nat :=
  Nat.pow 2 width + 1

theorem isPublicPair_long : IsPublicPair (longFactor 2048 * longFactor 2049) 3 := by
  decide +kernel

theorem isPrivatePart_long :
    IsPrivatePart (longFactor 2048 * longFactor 2049) 3 (longFactor 2049 / 3) (longFactor 2048)
      (longFactor 2049) := by
  decide +kernel

/-- A key with 4098 bits. -/
def longKey : Rsa.PrivateKey where
  publicKey := ⟨longFactor 2048 * longFactor 2049, 3, isPublicPair_long⟩
  exponent := longFactor 2049 / 3
  p := longFactor 2048
  q := longFactor 2049
  isPrivatePart := isPrivatePart_long

theorem length_form_longKey : (longKey.form 0 0 0).encode.length < lengthLimit := by
  have small : ∀ number ∈ [0, longKey.publicKey.modulus, longKey.publicKey.exponent,
      longKey.exponent, longKey.p, longKey.q, 0, 0, 0], number < 256 ^ 513 := by
    decide +kernel
  have content : (longKey.form 0 0 0).content.length ≤ 9 * (513 + 7) :=
    Element.length_encodeAll_ofInt_le (by decide) (by decide) small
  have room : 9 * (513 + 7) + 6 < lengthLimit := by
    decide
  have encoded : (longKey.form 0 0 0).encode.length ≤ (longKey.form 0 0 0).content.length + 6 :=
    Element.length_encode_le (by omega)
  omega

/-- A private key with 4098 bits is imported, and the usual information about its public half is
refused. -/
theorem long_key_is_imported_as_private_only :
    ∃ files publicFiles : FileAccess,
      files.HoldsBlock "key.pem" (longKey.form 0 0 0).encode ∧
      (∃ reader, (privateKeyToSign.run files "key.pem").outcome = .ok reader) ∧
      publicFiles.HoldsBlock "key.pem"
        (rsaForm [] longKey.publicKey.modulus longKey.publicKey.exponent).encode ∧
      (publicKeyToVerify.run publicFiles "key.pem").outcome = .error (.rsa .publicNumbers) := by
  have large : maxSize < longKey.publicKey.size := by
    decide +kernel
  have usual : [] ∈ usualParameters := List.mem_cons_self
  have publicShort := length_rsaForm_of_large usual large length_form_longKey
  have holds := FileAccess.holdsBlock_holding (longKey.form 0 0 0).encode "key.pem"
  have publicHolds := FileAccess.holdsBlock_holding
    (rsaForm [] longKey.publicKey.modulus longKey.publicKey.exponent).encode "key.pem"
  have accepted : (privateKeyToSign.run _ "key.pem").outcome = _ :=
    outcome_run_of_privateForm rfl holds
  rw [if_pos ⟨by decide, by decide, by decide, length_form_longKey⟩] at accepted
  have refused : (publicKeyToVerify.run _ "key.pem").outcome = _ :=
    outcome_run_of_large rfl publicHolds areParameters_nil publicShort large
  exact ⟨_, _, holds, ⟨_, accepted⟩, publicHolds, refused⟩

end Importer

end KeyStore
