import KeyStore.Proofs.Der.ObjectId
import KeyStore.Proofs.Import.Certificate

/-!
# Keys of other algorithms

A loader of public keys tells a key of another algorithm from a payload that is malformed, and from
a bad key of its own algorithm. Each fault stands for one stage: the file, its armour, the structure
of the payload, the algorithm, and the key.
-/

namespace KeyStore

open Log Der Rsa

/-- A payload is public key information, whose key may have up to seven unused bits. -/
def IsPublicKey (payload : Bytes) (info : PublicKeyInfo) : Prop :=
  ∃ unused, payload = (info.unaligned unused).encode ∧ unused ≤ 7 ∧
    (info.key = [] → unused = 0) ∧
    (∀ parameter ∈ info.algorithm.parameters, IsKnownTag parameter.tag) ∧
    payload.length < lengthLimit

def IsCertificateOf (payload : Bytes) (info : PublicKeyInfo) : Prop :=
  ∃ certificate : Certificate, payload = certificate.element.encode ∧
    IsPublicKey certificate.key.encode info

theorem decode?_eq_some_iff_isPublicKey {payload : Bytes} {info : PublicKeyInfo} :
    PublicKeyInfo.decode? payload = some info ↔ IsPublicKey payload info :=
  PublicKeyInfo.decode?_eq_some_iff

theorem certifiedKey?_eq_some_iff {payload : Bytes} {info : PublicKeyInfo} :
    certifiedKey? payload = some info ↔ IsCertificateOf payload info := by
  constructor
  · intro found
    obtain ⟨certificate, rfl⟩ := exists_certificate_of_certifiedKey found
    rw [certificate.certifiedKey?_encode] at found
    exact ⟨certificate, rfl, decode?_eq_some_iff_isPublicKey.mp found⟩
  · rintro ⟨certificate, rfl, isPublicKey⟩
    rw [certificate.certifiedKey?_encode]
    exact decode?_eq_some_iff_isPublicKey.mpr isPublicKey

/-! ## Faults -/

section Faults

variable (Holds : Bytes → PublicKeyInfo → Prop) (files : FileAccess) (path : String)

/-- What a loader of payloads that hold public key information finds wrong with a file. -/
inductive FailsToLoad : StoreFault → Prop
  | file {cause : FileFault} (unreadable : files.readText path = .error cause) :
      FailsToLoad (.file path cause)
  | armour {text : String} {cause : Pem.Fault} (read : files path = .ok (Utf8.encode text))
      (malformed : Pem.parse text = .error cause) : FailsToLoad (.armour cause)
  | der {block : Pem.Block} (first : files.FirstBlock path block)
      (malformed : ∀ info, ¬Holds block.contents info) : FailsToLoad .der
  | notRsa {block : Pem.Block} {info : PublicKeyInfo} (first : files.FirstBlock path block)
      (holds : Holds block.contents info)
      (other : info.algorithm.algorithm ≠ .rsaEncryption) :
      FailsToLoad (.notRsa info.algorithm.algorithm)
  | rsa {block : Pem.Block} {info : PublicKeyInfo} {cause : Rsa.Fault}
      (first : files.FirstBlock path block) (holds : Holds block.contents info)
      (same : info.algorithm.algorithm = .rsaEncryption)
      (malformed : Rsa.PublicKey.decode info.key = .error cause) : FailsToLoad (.rsa cause)

/-- The faults of an outcome are told apart, each with its kind. -/
structure SortsFaults (outcome : Except StoreFault Rsa.PublicKey) : Prop where
  fault_iff : ∀ fault, outcome = .error fault ↔ FailsToLoad Holds files path fault
  wrongKeyType_iff : (∃ fault, outcome = .error fault ∧ fault.kind = .wrongKeyType) ↔
    ∃ block info, files.FirstBlock path block ∧ Holds block.contents info ∧
      info.algorithm.algorithm ≠ .rsaEncryption
  file_iff : (∃ fault, outcome = .error fault ∧ fault.kind = .file) ↔
    ∃ cause, files.readText path = .error cause
  decoding_iff : (∃ fault, outcome = .error fault ∧ fault.kind = .decoding) ↔
    ∃ text cause, files path = .ok (Utf8.encode text) ∧ Pem.parse text = .error cause
  parsing_iff : (∃ fault, outcome = .error fault ∧ fault.kind = .parsing) ↔
    ∃ block, files.FirstBlock path block ∧
      ((∀ info, ¬Holds block.contents info) ∨
        ∃ info cause, Holds block.contents info ∧
          info.algorithm.algorithm = .rsaEncryption ∧
          Rsa.PublicKey.decode info.key = .error cause)

end Faults

section Loading

variable {Holds : Bytes → PublicKeyInfo → Prop} {files : FileAccess} {path : String}

/-- The stages behind the armour: the payload of the first block, its algorithm, and its key. -/
theorem failsToLoad_of_rsaKeyOf {block : Pem.Block} {found : Option PublicKeyInfo}
    (first : files.FirstBlock path block)
    (finds : ∀ info, found = some info ↔ Holds block.contents info) {fault : StoreFault}
    (failed : rsaKeyOf found = .error fault) : FailsToLoad Holds files path fault := by
  cases found with
  | none =>
      obtain rfl := Except.error.inj failed
      apply FailsToLoad.der first
      intro info holds
      have read := (finds info).mpr holds
      contradiction
  | some info =>
      have holds := (finds info).mp rfl
      rw [rsaKeyOf] at failed
      by_cases same : info.algorithm.algorithm = .rsaEncryption
      · rw [rsaKey_of_same same] at failed
        cases decoded : Rsa.PublicKey.decode info.key with
        | ok key =>
            rw [decoded] at failed
            contradiction
        | error cause =>
            rw [decoded] at failed
            obtain rfl := Except.error.inj failed
            exact .rsa first holds same decoded
      · rw [rsaKey_of_other same] at failed
        obtain rfl := Except.error.inj failed
        exact .notRsa first holds same

section Loaders

variable {decode : Bytes → Option PublicKeyInfo} {fault : StoreFault}
  (decodes : ∀ payload info, decode payload = some info ↔ Holds payload info)

include decodes

theorem failsToLoad_of_outcome
    (failed : (readBlock files path).outcome.bind (fun payload => rsaKeyOf (decode payload)) =
      .error fault) : FailsToLoad Holds files path fault := by
  -- Each stage is looked at only if the one before it has a value.
  cases read : files.readText path with
  | error cause =>
      rw [outcome_readBlock_of_unreadable read] at failed
      obtain rfl := Except.error.inj failed
      exact .file read
  | ok text =>
      have file := readText_eq_ok_iff.mp read
      cases parsed : Pem.parse text with
      | error cause =>
          rw [outcome_readBlock_of_malformed file parsed] at failed
          obtain rfl := Except.error.inj failed
          exact .armour file parsed
      | ok block =>
          have first : files.FirstBlock path block := ⟨text, file, parsed⟩
          rw [readBlock_of_firstBlock first] at failed
          exact failsToLoad_of_rsaKeyOf first (decodes block.contents) failed

theorem outcome_of_failsToLoad (fails : FailsToLoad Holds files path fault) :
    (readBlock files path).outcome.bind (fun payload => rsaKeyOf (decode payload)) =
      .error fault := by
  cases fails with
  | file unreadable =>
      rw [outcome_readBlock_of_unreadable unreadable]
      rfl
  | armour read malformed =>
      rw [outcome_readBlock_of_malformed read malformed]
      rfl
  | @der block first malformed =>
      have nothing : decode block.contents = none := by
        rw [Option.eq_none_iff_forall_ne_some]
        intro info found
        exact malformed info ((decodes _ info).mp found)
      rw [readBlock_of_firstBlock first]
      simp only [Except.bind, nothing, rsaKeyOf]
  | notRsa first holds other =>
      have found := (decodes _ _).mpr holds
      rw [readBlock_of_firstBlock first]
      simp only [Except.bind, found, rsaKeyOf, rsaKey_of_other other]
  | rsa first holds same malformed =>
      have found := (decodes _ _).mpr holds
      rw [readBlock_of_firstBlock first]
      simp only [Except.bind, found, rsaKeyOf, rsaKey_of_same same, malformed, Except.mapError]

end Loaders

/-- The kind of a fault tells its stage, so the faults are told apart by their kinds. -/
theorem sortsFaults_of_fault_iff {outcome : Except StoreFault Rsa.PublicKey}
    (fault_iff : ∀ fault, outcome = .error fault ↔ FailsToLoad Holds files path fault) :
    SortsFaults Holds files path outcome := by
  refine ⟨fault_iff, ?_, ?_, ?_, ?_⟩
  · constructor
    · rintro ⟨fault, failed, kind⟩
      cases (fault_iff fault).mp failed with
      | notRsa first holds other => exact ⟨_, _, first, holds, other⟩
      | _ => contradiction
    · rintro ⟨block, info, first, holds, other⟩
      exact ⟨_, (fault_iff _).mpr (.notRsa first holds other), rfl⟩
  · constructor
    · rintro ⟨fault, failed, kind⟩
      cases (fault_iff fault).mp failed with
      | file unreadable => exact ⟨_, unreadable⟩
      | _ => contradiction
    · rintro ⟨cause, unreadable⟩
      exact ⟨_, (fault_iff _).mpr (.file unreadable), rfl⟩
  · constructor
    · rintro ⟨fault, failed, kind⟩
      cases (fault_iff fault).mp failed with
      | armour read malformed => exact ⟨_, _, read, malformed⟩
      | _ => contradiction
    · rintro ⟨text, cause, read, malformed⟩
      exact ⟨_, (fault_iff _).mpr (.armour read malformed), rfl⟩
  · constructor
    · rintro ⟨fault, failed, kind⟩
      cases (fault_iff fault).mp failed with
      | der first malformed => exact ⟨_, first, .inl malformed⟩
      | rsa first holds same malformed => exact ⟨_, first, .inr ⟨_, _, holds, same, malformed⟩⟩
      | _ => contradiction
    · rintro ⟨block, first, malformed | ⟨info, cause, holds, same, malformed⟩⟩
      · exact ⟨_, (fault_iff _).mpr (.der first malformed), rfl⟩
      · exact ⟨_, (fault_iff _).mpr (.rsa first holds same malformed), rfl⟩

theorem sortsFaults_loadPublicKey (files : FileAccess) (path : String) :
    SortsFaults IsPublicKey files path (loadPublicKey files path).outcome := by
  apply sortsFaults_of_fault_iff
  intro fault
  rw [loadPublicKey, Traced.outcome_bind]
  exact ⟨failsToLoad_of_outcome fun _ _ => decode?_eq_some_iff_isPublicKey,
    outcome_of_failsToLoad fun _ _ => decode?_eq_some_iff_isPublicKey⟩

theorem sortsFaults_loadCertifiedKey (files : FileAccess) (path : String) :
    SortsFaults IsCertificateOf files path (loadCertifiedKey files path).outcome := by
  apply sortsFaults_of_fault_iff
  intro fault
  rw [loadCertifiedKey, Traced.outcome_bind]
  exact ⟨failsToLoad_of_outcome fun _ _ => certifiedKey?_eq_some_iff,
    outcome_of_failsToLoad fun _ _ => certifiedKey?_eq_some_iff⟩

end Loading

/-! ## Algorithms -/

section Algorithms

variable {identifier : ObjectId} {first second : Nat} {others : List Nat}

theorem eq_rsaEncryption_iff (roots : AreRoots first second)
    (content : identifier.content = arcsContent first second others) :
    identifier = .rsaEncryption ↔
      first = 1 ∧ second = 2 ∧ others = [840, 113549, 1, 1, 1] := by
  have rsaRoots : AreRoots 1 2 := by
    decide
  constructor
  · rintro rfl
    rw [ObjectId.content_rsaEncryption] at content
    obtain ⟨isFirst, isSecond, areOthers⟩ := arcsContent_inj rsaRoots roots content
    exact ⟨isFirst.symm, isSecond.symm, areOthers.symm⟩
  · rintro ⟨rfl, rfl, rfl⟩
    apply ObjectId.eq_of_content
    rw [content, ObjectId.content_rsaEncryption]

theorem message_of_content (roots : AreRoots first second)
    (content : identifier.content = arcsContent first second others) :
    (StoreFault.notRsa identifier).message =
      "expected an RSA key, found algorithm " ++
        ".".intercalate ((first :: second :: others.map (· % 2 ^ 32)).map toString) := by
  show "expected an RSA key, found algorithm " ++ identifier.text = _
  rw [ObjectId.text_of_content roots content]

end Algorithms

/-- A loader of public keys says that a key has the wrong type exactly if the payload of the first
block can be read and its algorithm is not that of RSA keys, whatever the parameters and the key
are. Every other fault has its own condition. Which algorithms can be read follows from their
numbers, and the message writes the numbers out, those behind the first two modulo `2 ^ 32`. -/
theorem wrong_key_type_of_other_algorithms (files : FileAccess) (path : String) :
    SortsFaults IsPublicKey files path (loadPublicKey files path).outcome ∧
    SortsFaults IsCertificateOf files path (loadCertifiedKey files path).outcome ∧
    ∀ (first second : Nat) (others : List Nat), AreRoots first second →
      ((∃ identifier : ObjectId, identifier.content = arcsContent first second others) ↔
        IsReadableId first second others) ∧
      ∀ identifier : ObjectId, identifier.content = arcsContent first second others →
        (identifier = .rsaEncryption ↔
          first = 1 ∧ second = 2 ∧ others = [840, 113549, 1, 1, 1]) ∧
        (StoreFault.notRsa identifier).message =
          "expected an RSA key, found algorithm " ++
            ".".intercalate ((first :: second :: others.map (· % 2 ^ 32)).map toString) ∧
        ((∀ other ∈ others, other < 2 ^ 32) →
          (StoreFault.notRsa identifier).message =
            "expected an RSA key, found algorithm " ++
              ".".intercalate ((first :: second :: others).map toString)) := by
  refine ⟨sortsFaults_loadPublicKey files path, sortsFaults_loadCertifiedKey files path, ?_⟩
  intro first second others roots
  refine ⟨ObjectId.exists_content_iff roots, ?_⟩
  intro identifier content
  have message := message_of_content roots content
  refine ⟨eq_rsaEncryption_iff roots content, message, ?_⟩
  intro small
  rw [message, ObjectId.map_mod_of_small small]

/-- The algorithm of keys on elliptic curves, 1.2.840.10045.2.1. -/
def ecPublicKey : ObjectId where
  content := [0x2a, 0x86, 0x48, 0xce, 0x3d, 0x02, 0x01]
  arcs := [1, 2, 840, 10045, 2, 1]
  arcs_eq := by decide +kernel

theorem outcome_loadPublicKey_of_other {files : FileAccess} {path : String} {identifier : ObjectId}
    {key : Bytes} (holds : files.HoldsBlock path (PublicKeyInfo.form identifier [] key).encode)
    (short : (PublicKeyInfo.form identifier [] key).encode.length < lengthLimit)
    (other : identifier ≠ .rsaEncryption) :
    (loadPublicKey files path).outcome = .error (.notRsa identifier) := by
  have nothing : EncodesParameters [] none := ⟨rfl, nofun⟩
  have read := PublicKeyInfo.decode?_form nothing short
  rw [outcome_loadPublicKey holds, decodePublicKey, read]
  exact rsaKey_of_other other

theorem wrong_key_type_of_curve_key :
    AreRoots 1 2 ∧ ecPublicKey.content = arcsContent 1 2 [840, 10045, 2, 1] ∧
      ∃ files : FileAccess,
        (∃ fault, (loadPublicKey files "key.pem").outcome = .error fault ∧
          fault.kind = .wrongKeyType) ∧
        FailsToLoad IsPublicKey files "key.pem" (.notRsa ecPublicKey) ∧
        (StoreFault.notRsa ecPublicKey).message =
          "expected an RSA key, found algorithm 1.2.840.10045.2.1" := by
  have roots : AreRoots 1 2 := by
    decide
  have content : ecPublicKey.content = arcsContent 1 2 [840, 10045, 2, 1] := by
    decide +kernel
  have holds := FileAccess.holdsBlock_holding
    (PublicKeyInfo.form ecPublicKey [] [4, 5]).encode "key.pem"
  obtain ⟨sorts, _, tells⟩ := wrong_key_type_of_other_algorithms
    (.holding (PublicKeyInfo.form ecPublicKey [] [4, 5]).encode) "key.pem"
  obtain ⟨isRsa, _, message⟩ := (tells 1 2 [840, 10045, 2, 1] roots).2 ecPublicKey content
  have other : ecPublicKey ≠ .rsaEncryption := by
    rw [ne_eq, isRsa]
    decide
  have outcome := outcome_loadPublicKey_of_other holds (by decide +kernel) other
  refine ⟨roots, content, _, ⟨_, outcome, rfl⟩, (sorts.fault_iff _).mp outcome, ?_⟩
  rw [message (by decide)]
  decide +kernel

/-- The element of public key information, whatever stands in place of its algorithm. -/
def informationOf (content parameters key : Bytes) : Element :=
  .ofParts sequenceTag
    [⟨sequenceTag, Element.encode ⟨objectIdTag, content⟩ ++ parameters⟩, .ofBits key]

theorem informationOf_content (identifier : ObjectId) (parameters key : Bytes) :
    informationOf identifier.content parameters key =
      PublicKeyInfo.form identifier parameters key :=
  rfl

/-- An object identifier whose last number has more than 32 bits can be written like that of RSA
keys. -/
theorem exists_other_identifier_of_rsa_text :
    ∃ identifier : ObjectId,
      identifier.content = arcsContent 1 2 [840, 113549, 1, 1, 2 ^ 32 + 1] ∧
      identifier ≠ .rsaEncryption ∧ identifier.text = "1.2.840.113549.1.1.1" := by
  have roots : AreRoots 1 2 := by
    decide
  have readable : IsReadableId 1 2 [840, 113549, 1, 1, 2 ^ 32 + 1] :=
    ⟨by decide +kernel, by decide +kernel, by decide, by decide⟩
  obtain ⟨identifier, content⟩ := (ObjectId.exists_content_iff roots).mpr readable
  refine ⟨identifier, content, ?_, ?_⟩
  · rw [ne_eq, eq_rsaEncryption_iff roots content]
    decide
  · rw [ObjectId.text_of_content roots content]
    decide +kernel

/-- Not every key of another algorithm is told: the algorithm 1.2.3 is too short to be read, and a
number of more than 32 bits is written modulo `2 ^ 32`. A key whose parameters have an unknown tag
is refused, and so is one that is too long, and one in a certificate that starts with the year
1950. -/
theorem not_all_other_algorithms_are_told :
    (∃ files : FileAccess,
      files.HoldsBlock "key.pem" (informationOf (arcsContent 1 2 [3]) [] [4, 5]).encode ∧
      (loadPublicKey files "key.pem").outcome = .error .der) ∧
    (∃ (files : FileAccess) (identifier : ObjectId),
      identifier.content = arcsContent 1 2 [840, 113549, 1, 1, 2 ^ 32 + 1] ∧
      files.HoldsBlock "key.pem" (informationOf identifier.content [] [4, 5]).encode ∧
      (loadPublicKey files "key.pem").outcome = .error (.notRsa identifier) ∧
      identifier.text = "1.2.840.113549.1.1.1") ∧
    (∃ files : FileAccess,
      files.HoldsBlock "key.pem"
        (informationOf ecPublicKey.content (Element.encode ⟨0x0d, [1]⟩) [4, 5]).encode ∧
      (loadPublicKey files "key.pem").outcome = .error .der) ∧
    (∃ (files : FileAccess) (key : Bytes),
      files.HoldsBlock "key.pem" (informationOf ecPublicKey.content [] key).encode ∧
      (loadPublicKey files "key.pem").outcome = .error .der) ∧
    ∃ files : FileAccess,
      files.HoldsBlock "cert.pem"
        { Importer.partsOfFifteen (Importer.newYear 0x35 0x30) [1] with
          key := informationOf ecPublicKey.content [] [4, 5] }.element.encode ∧
      (loadCertifiedKey files "cert.pem").outcome = .error .der := by
  have refused (payload : Bytes) (noKey : PublicKeyInfo.decode? payload = none) :
      ∃ files : FileAccess, files.HoldsBlock "key.pem" payload ∧
        (loadPublicKey files "key.pem").outcome = .error .der := by
    have holds := FileAccess.holdsBlock_holding payload "key.pem"
    refine ⟨_, holds, ?_⟩
    rw [outcome_loadPublicKey holds, decodePublicKey, noKey, rsaKeyOf]
  refine ⟨refused _ ?_, ?_, refused _ ?_, ?_, ?_⟩
  · apply Option.isNone_iff_eq_none.mp
    decide +kernel
  · obtain ⟨identifier, content, other, text⟩ := exists_other_identifier_of_rsa_text
    have short : (informationOf identifier.content [] [4, 5]).encode.length < lengthLimit := by
      rw [content]
      decide +kernel
    rw [informationOf_content] at short
    have holds := FileAccess.holdsBlock_holding
      (PublicKeyInfo.form identifier [] [4, 5]).encode "key.pem"
    refine ⟨_, identifier, content, ?_, outcome_loadPublicKey_of_other holds short other, text⟩
    rw [informationOf_content]
    exact holds
  · apply Option.isNone_iff_eq_none.mp
    decide +kernel
  · have long : ¬(PublicKeyInfo.form ecPublicKey [] (List.replicate lengthLimit 0)).encode.length <
        lengthLimit := by
      intro short
      have inside := PublicKeyInfo.key_lt_form.trans short
      rw [List.length_replicate] at inside
      exact Nat.lt_irrefl _ inside
    have noKey := PublicKeyInfo.decode?_form_eq_none fun fits => long fits.2
    obtain ⟨files, holds, outcome⟩ := refused _ noKey
    refine ⟨files, List.replicate lengthLimit 0, ?_, outcome⟩
    rw [informationOf_content]
    exact holds
  · have holds := FileAccess.holdsBlock_holding
      { Importer.partsOfFifteen (Importer.newYear 0x35 0x30) [1] with
        key := informationOf ecPublicKey.content [] [4, 5] }.element.encode "cert.pem"
    refine ⟨_, holds, outcome_loadCertifiedKey_of_noKey holds ?_⟩
    apply Option.isNone_iff_eq_none.mp
    decide +kernel

end KeyStore
