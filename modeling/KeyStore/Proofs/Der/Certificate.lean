import KeyStore.Der.Certificate
import KeyStore.Proofs.Der.Primitive

/-!
# Certificates in their only form

A byte string is a certificate with a given key exactly if it is the form of parts that are all
well-formed, and then the key is read as if its element stood alone.
-/

namespace KeyStore.Der

theorem tag_of_isVersionField {element : Element} (valid : IsVersionField element) :
    element.tag = contextTag 0 := by
  unfold IsVersionField at valid
  split at valid
  · next split => exact Element.tag_of_parts split
  · contradiction

theorem isKnownTag_of_isAlgorithm {element : Element} (valid : IsAlgorithm element) :
    IsKnownTag element.tag := by
  rw [IsAlgorithm, AlgorithmId.ofElement?] at valid
  split at valid
  · next split => exact Element.isKnownTag_of_parts split
  · contradiction

theorem isKnownTag_of_isName {element : Element} (valid : IsName element) :
    IsKnownTag element.tag := by
  unfold IsName at valid
  split at valid
  · next split => exact Element.isKnownTag_of_parts split
  · contradiction

theorem isKnownTag_of_isValidity {element : Element} (valid : IsValidity element) :
    IsKnownTag element.tag := by
  unfold IsValidity at valid
  split at valid
  · next split => exact Element.isKnownTag_of_parts split
  · contradiction

theorem isKnownTag_of_isBitString {element : Element} (valid : IsBitString element) :
    IsKnownTag element.tag := by
  rw [IsBitString, Element.bits?] at valid
  split at valid
  · next tag =>
      rw [tag]
      decide
  · contradiction

theorem isKnownTag_of_contextNumber {element : Element} {number : UInt8}
    (found : element.contextNumber? = some number) (small : number < 0x1f) :
    IsKnownTag element.tag := by
  unfold Element.contextNumber? at found
  split at found
  · next isField =>
      have masked : (element.tag &&& 0xc0).toNat ≤ element.tag.toNat := by
        rw [UInt8.toNat_and]
        exact Nat.and_le_left
      have high : (0x40 : UInt8).toNat ≤ element.tag.toNat := by
        rw [isField] at masked
        exact le_trans (by decide) masked
      rw [← Option.some.inj found] at small
      exact .inr ⟨UInt8.le_iff_toNat_le.mpr high, UInt8.ne_of_lt small⟩
  · contradiction

/-- What is passed over in front of an optional field are fields with lower numbers. -/
theorem takeField_eq (number : UInt8) (elements : List Element) :
    ∃ passed, elements =
        passed ++ (takeField number elements).1.toList ++ (takeField number elements).2 ∧
      (∀ element ∈ passed, ∃ lower, element.contextNumber? = some lower ∧ lower < number) ∧
      ∀ element ∈ (takeField number elements).1, element.contextNumber? = some number := by
  induction elements with
  | nil =>
      exact ⟨[], rfl, fun _ member => absurd member List.not_mem_nil, nofun⟩
  | cons element rest inductionHypothesis =>
      unfold takeField
      split
      · next found isField =>
          split
          · next same =>
              refine ⟨[], rfl, fun _ member => absurd member List.not_mem_nil, ?_⟩
              rintro _ ⟨⟩
              rw [isField, same]
          · split
            · next lower =>
                obtain ⟨passed, split, passedLower, field⟩ := inductionHypothesis
                refine ⟨element :: passed, ?_, ?_, field⟩
                · rw [List.cons_append, List.cons_append, ← split]
                · exact List.forall_mem_cons.mpr ⟨⟨found, isField, lower⟩, passedLower⟩
            · exact ⟨[], rfl, fun _ member => absurd member List.not_mem_nil, nofun⟩
      · exact ⟨[], rfl, fun _ member => absurd member List.not_mem_nil, nofun⟩

theorem isKnownTag_of_takeField (number : UInt8) (small : number < 0x1f) {elements : List Element}
    (rest : ∀ element ∈ (takeField number elements).2, IsKnownTag element.tag) :
    ∀ element ∈ elements, IsKnownTag element.tag := by
  obtain ⟨passed, split, passedLower, field⟩ := takeField_eq number elements
  intro element member
  rw [split, List.mem_append, List.mem_append, Option.mem_toList] at member
  rcases member with (inPassed | isField) | inRest
  · obtain ⟨lower, isLower, below⟩ := passedLower element inPassed
    exact isKnownTag_of_contextNumber isLower (UInt8.lt_trans below small)
  · exact isKnownTag_of_contextNumber (field element isField) small
  · exact rest element inRest

theorem isKnownTag_of_isTrailer {trailer : List Element} (valid : IsTrailer trailer) :
    ∀ element ∈ trailer, IsKnownTag element.tag := by
  obtain ⟨-, -, -, empty⟩ := valid
  refine isKnownTag_of_takeField 1 (by decide) ?_
  refine isKnownTag_of_takeField 2 (by decide) ?_
  refine isKnownTag_of_takeField 3 (by decide) ?_
  rw [empty]
  exact fun _ member => absurd member List.not_mem_nil

theorem toList_takeField_zero (elements : List Element) :
    (takeField 0 elements).1.toList ++ (takeField 0 elements).2 = elements := by
  obtain ⟨passed, split, passedLower, _⟩ := takeField_eq 0 elements
  have none : passed = [] := by
    refine List.eq_nil_iff_forall_not_mem.mpr fun element member => ?_
    obtain ⟨lower, _, below⟩ := passedLower element member
    exact UInt8.not_lt_zero below
  rw [none, List.nil_append] at split
  exact split.symm

/-- An optional field is taken if what stands behind it is no field with the same or a lower
number. -/
theorem takeField_toList_append {number : UInt8} {field : Option Element} (rest : List Element)
    (isField : ∀ element ∈ field, element.contextNumber? = some number)
    (behind : ∀ element ∈ rest.head?, ∀ other ∈ element.contextNumber?, number < other) :
    takeField number (field.toList ++ rest) = (field, rest) := by
  cases field with
  | some element =>
      rw [Option.toList_some, List.singleton_append, takeField, isField element rfl]
      exact if_pos rfl
  | none =>
      rw [Option.toList_none, List.nil_append]
      cases rest with
      | nil =>
          rfl
      | cons element others =>
          rw [takeField]
          cases other : element.contextNumber? with
          | none =>
              rfl
          | some found =>
              have higher := behind element rfl found other
              simp only
              rw [if_neg (UInt8.ne_of_lt higher).symm, if_neg (UInt8.lt_asymm higher)]

theorem contextNumber_of_isUniqueId {number : UInt8} {element : Element}
    (valid : IsUniqueId number element) (small : number = 1 ∨ number = 2) :
    element.contextNumber? = some number := by
  rw [Element.contextNumber?, valid.1]
  rcases small with rfl | rfl <;> rfl

theorem contextNumber_of_isExtensionField {element : Element} (valid : IsExtensionField element) :
    element.contextNumber? = some 3 := by
  unfold IsExtensionField at valid
  split at valid
  · next split =>
      rw [Element.contextNumber?, Element.tag_of_parts split]
      rfl
  · contradiction

/-- The unique identifiers and the extensions, each of which may be absent, end the signed part. -/
theorem isTrailer_of_fields {issuerId subjectId extensions : Option Element}
    (issuerValid : OptionalField (IsUniqueId 1) issuerId)
    (subjectValid : OptionalField (IsUniqueId 2) subjectId)
    (extensionsValid : OptionalField IsExtensionField extensions) :
    IsTrailer (issuerId.toList ++ (subjectId.toList ++ extensions.toList)) := by
  have isIssuer : ∀ element ∈ issuerId, element.contextNumber? = some 1 := fun element member =>
    contextNumber_of_isUniqueId (issuerValid element member) (.inl rfl)
  have isSubject : ∀ element ∈ subjectId, element.contextNumber? = some 2 := fun element member =>
    contextNumber_of_isUniqueId (subjectValid element member) (.inr rfl)
  have isExtensions : ∀ element ∈ extensions, element.contextNumber? = some 3 :=
    fun element member => contextNumber_of_isExtensionField (extensionsValid element member)
  have first := takeField_toList_append (subjectId.toList ++ extensions.toList) isIssuer (by
    cases subjectId with
    | some subject => simp [isSubject subject rfl]
    | none => cases extensions with
      | some field => simp [isExtensions field rfl]
      | none => simp)
  have second := takeField_toList_append extensions.toList isSubject (by
    cases extensions with
    | some field => simp [isExtensions field rfl]
    | none => simp)
  have third := takeField_toList_append [] isExtensions nofun
  rw [List.append_nil] at third
  simp only [IsTrailer, first, second, third]
  exact ⟨issuerValid, subjectValid, extensionsValid, trivial⟩

/-! ## Certificates -/

structure CertificateParts where
  version : Option Element
  serial : Element
  signature : Element
  issuer : Element
  validity : Element
  subject : Element
  key : Element
  trailer : List Element
  algorithm : Element
  signatureValue : Element

namespace CertificateParts

variable (parts : CertificateParts)

def signedParts : List Element :=
  parts.version.toList ++
    parts.serial :: parts.signature :: parts.issuer :: parts.validity :: parts.subject ::
      parts.key :: parts.trailer

def signed : Element :=
  .ofParts sequenceTag parts.signedParts

def element : Element :=
  .ofParts sequenceTag [parts.signed, parts.algorithm, parts.signatureValue]

theorem key_lt_element : parts.key.encode.length < parts.element.encode.length := by
  have inSigned : parts.key ∈ parts.signedParts := by
    simp [signedParts]
  calc parts.key.encode.length
    _ < parts.signed.encode.length := Element.encode_lt_ofParts _ inSigned
    _ < parts.element.encode.length := Element.encode_lt_ofParts _ List.mem_cons_self

theorem signatureValue_lt_element :
    parts.signatureValue.encode.length < parts.element.encode.length :=
  Element.encode_lt_ofParts _ (by simp)

end CertificateParts

/-- A certificate: parts that all have their form, of which only the key is not looked into. The
whole is short enough to be read. -/
structure Certificate extends CertificateParts where
  version_valid : OptionalField IsVersionField version
  serial_valid : IsSerialNumber serial
  signature_valid : IsAlgorithm signature
  issuer_valid : IsName issuer
  validity_valid : IsValidity validity
  subject_valid : IsName subject
  key_known : IsKnownTag key.tag
  trailer_valid : IsTrailer trailer
  algorithm_valid : IsAlgorithm algorithm
  signatureValue_valid : IsBitString signatureValue
  short : toCertificateParts.element.encode.length < lengthLimit

namespace Certificate

variable (certificate : Certificate)

theorem isKnownTag_signedParts :
    ∀ part ∈ certificate.signedParts, IsKnownTag part.tag := by
  intro part member
  rw [CertificateParts.signedParts, List.mem_append, Option.mem_toList] at member
  rcases member with isVersion | inRest
  · rw [tag_of_isVersionField (certificate.version_valid part isVersion)]
    decide
  · revert part
    simp only [List.forall_mem_cons]
    refine ⟨?_, isKnownTag_of_isAlgorithm certificate.signature_valid,
      isKnownTag_of_isName certificate.issuer_valid,
      isKnownTag_of_isValidity certificate.validity_valid,
      isKnownTag_of_isName certificate.subject_valid, certificate.key_known,
      isKnownTag_of_isTrailer certificate.trailer_valid⟩
    rw [certificate.serial_valid.1]
    decide

theorem parts?_signed :
    certificate.signed.parts? sequenceTag = some certificate.signedParts := by
  refine Element.parts?_ofParts certificate.isKnownTag_signedParts ?_
  calc certificate.signed.content.length
    _ < certificate.element.content.length := Element.content_lt_ofParts _ List.mem_cons_self
    _ < certificate.element.encode.length := Element.content_lt_encode _
    _ < lengthLimit := certificate.short

theorem parts?_element :
    certificate.element.parts? sequenceTag =
      some [certificate.signed, certificate.algorithm, certificate.signatureValue] := by
  refine Element.parts?_ofParts ?_ ((Element.content_lt_encode _).trans certificate.short)
  simp only [List.forall_mem_cons]
  exact ⟨isKnownTag_sequenceTag, isKnownTag_of_isAlgorithm certificate.algorithm_valid,
    isKnownTag_of_isBitString certificate.signatureValue_valid,
    fun _ member => absurd member List.not_mem_nil⟩

/-- The version is told from the serial number by its tag. -/
theorem takeField_signedParts :
    takeField 0 certificate.signedParts =
      (certificate.version,
        certificate.serial :: certificate.signature :: certificate.issuer ::
          certificate.validity :: certificate.subject :: certificate.key ::
            certificate.trailer) := by
  refine takeField_toList_append _ (fun field isVersion => ?_) ?_
  · rw [Element.contextNumber?,
      tag_of_isVersionField (certificate.version_valid field isVersion)]
    rfl
  · rintro _ ⟨⟩ other found
    rw [Element.contextNumber?, certificate.serial_valid.1] at found
    contradiction

theorem certifiedKeyElement?_element :
    certifiedKeyElement? certificate.element = some certificate.key := by
  have signedKey : signedKeyElement? certificate.signed = some certificate.key := by
    simp only [signedKeyElement?, certificate.parts?_signed, certificate.takeField_signedParts]
    exact if_pos ⟨certificate.version_valid, certificate.serial_valid, certificate.signature_valid,
      certificate.issuer_valid, certificate.validity_valid, certificate.subject_valid,
      certificate.trailer_valid⟩
  simp only [certifiedKeyElement?, certificate.parts?_element]
  rw [if_pos ⟨certificate.algorithm_valid, certificate.signatureValue_valid⟩, signedKey]

/-- The key of a certificate is read as if its element stood alone. -/
theorem certifiedKey?_encode :
    certifiedKey? certificate.element.encode = PublicKeyInfo.decode? certificate.key.encode := by
  have whole := decodeOnly?_eq_some_iff.mpr
    ⟨rfl, show IsKnownTag certificate.element.tag from isKnownTag_sequenceTag, certificate.short⟩
  have alone := decodeOnly?_eq_some_iff.mpr
    ⟨rfl, certificate.key_known, certificate.key_lt_element.trans certificate.short⟩
  simp only [certifiedKey?, whole, bind, Option.bind, certificate.certifiedKeyElement?_element,
    PublicKeyInfo.decode?, alone]

end Certificate

theorem certifiedKey?_of_long {bytes : Bytes} (long : ¬bytes.length < lengthLimit) :
    certifiedKey? bytes = none := by
  rw [certifiedKey?, decodeOnly?, if_neg long]
  rfl

theorem exists_parts_of_signedKey {element key : Element}
    (found : signedKeyElement? element = some key) :
    ∃ (version : Option Element) (serial signature issuer validity subject : Element)
      (trailer : List Element),
      element = .ofParts sequenceTag (version.toList ++
        serial :: signature :: issuer :: validity :: subject :: key :: trailer) ∧
      IsKnownTag key.tag ∧ OptionalField IsVersionField version ∧ IsSerialNumber serial ∧
      IsAlgorithm signature ∧ IsName issuer ∧ IsValidity validity ∧ IsName subject ∧
      IsTrailer trailer := by
  unfold signedKeyElement? at found
  split at found
  · contradiction
  · next parts split =>
      obtain ⟨isSequence, readable⟩ := Element.parts?_eq_some_iff.mp split
      have whole := toList_takeField_zero parts
      simp only at found
      split at found
      · next serial signature issuer validity subject inner trailer rest =>
          split at found
          · next valid =>
              obtain rfl := Option.some.inj found
              rw [rest] at whole
              refine ⟨(takeField 0 parts).1, serial, signature, issuer, validity, subject, trailer,
                ?_, ?_, valid⟩
              · rw [whole]
                exact isSequence
              · refine (readable inner ?_).1
                rw [← whole]
                simp
          · contradiction
      · contradiction

/-- Whatever has a key that can be found is a certificate. -/
theorem exists_certificate_of_certifiedKey {bytes : Bytes} {info : PublicKeyInfo}
    (found : certifiedKey? bytes = some info) :
    ∃ certificate : Certificate, bytes = certificate.element.encode := by
  simp only [certifiedKey?, Option.bind_eq_bind, Option.bind_eq_some_iff] at found
  obtain ⟨element, read, key, keyFound, _⟩ := found
  obtain ⟨isForm, _, short⟩ := decodeOnly?_eq_some_iff.mp read
  unfold certifiedKeyElement? at keyFound
  split at keyFound
  · next signed algorithm signature split =>
      split at keyFound
      · next valid =>
          obtain ⟨isSequence, _⟩ := Element.parts?_eq_some_iff.mp split
          obtain ⟨version, serial, signedAlgorithm, issuer, validity, subject, trailer, isSigned,
            known, versionValid, serialValid, algorithmValid, issuerValid, validityValid,
            subjectValid, trailerValid⟩ := exists_parts_of_signedKey keyFound
          rw [isSigned] at isSequence
          rw [isForm, isSequence] at short
          refine ⟨⟨⟨version, serial, signedAlgorithm, issuer, validity, subject, key, trailer,
            algorithm, signature⟩, versionValid, serialValid, algorithmValid, issuerValid,
            validityValid, subjectValid, known, trailerValid, valid.1, valid.2, short⟩, ?_⟩
          rw [isForm, isSequence]
          rfl
      · contradiction
  · contradiction

theorem certifiedKey?_eq_none {bytes : Bytes}
    (none : ∀ certificate : Certificate, bytes ≠ certificate.element.encode) :
    certifiedKey? bytes = .none := by
  rw [Option.eq_none_iff_forall_ne_some]
  intro info found
  obtain ⟨certificate, isForm⟩ := exists_certificate_of_certifiedKey found
  exact none certificate isForm

end KeyStore.Der
