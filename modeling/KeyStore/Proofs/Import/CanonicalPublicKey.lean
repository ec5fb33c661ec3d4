import KeyStore.Proofs.Import.PublicKey

/-!
# The payloads of a public key

A payload from which a public RSA key is loaded follows from the key, from the bytes of its
algorithm and from the number of unused bits in its bit string. That number may be anything from
zero to seven and does not count.
-/

namespace KeyStore

open Log Der Rsa

/-- The bytes of the algorithm and the number of unused bits of a payload that is laid out as public
key information. -/
def outline? (payload : Bytes) : Option (Bytes × UInt8) :=
  match (decodeOnly? payload).bind (Element.parts? sequenceTag) with
  | some [algorithm, ⟨_, unused :: _⟩] => some (algorithm.encode, unused)
  | _ => none

/-- A sequence of the bytes of an algorithm and a bit string around the form of a public key. -/
def keyElement (algorithm : Bytes) (unused : UInt8) (key : Rsa.PublicKey) : Element :=
  ⟨sequenceTag, algorithm ++
    Element.encode ⟨bitStringTag, unused :: (publicForm key.modulus key.exponent).encode⟩⟩

def rsaInfo (parameters : Option Element) (key : Rsa.PublicKey) : PublicKeyInfo :=
  ⟨⟨.rsaEncryption, parameters⟩, (publicForm key.modulus key.exponent).encode⟩

section Payloads

variable {parameters : Option Element} {unused : UInt8} {key : Rsa.PublicKey}

theorem unaligned_rsaInfo :
    (rsaInfo parameters key).unaligned unused =
      keyElement (rsaInfo parameters key).algorithm.element.encode unused key := by
  simp [PublicKeyInfo.unaligned, keyElement, Element.ofParts, encodeAll, rsaInfo]

theorem outline?_unaligned
    {info : PublicKeyInfo}
    (short : (info.unaligned unused).encode.length < lengthLimit) :
    outline? (info.unaligned unused).encode = some (info.algorithm.element.encode, unused) := by
  rw [outline?, PublicKeyInfo.decodeOnly?_unaligned short, Option.bind_some,
    PublicKeyInfo.parts?_unaligned short]

theorem length_encode_keyElement (algorithm : Bytes) (left right : UInt8) :
    (keyElement algorithm left key).encode.length =
      (keyElement algorithm right key).encode.length := by
  simp [keyElement, Element.length_encode]

/-- A public key is loaded exactly from its own form behind the algorithm of RSA keys, with up to
seven unused bits. -/
theorem decodePublicKey_eq_ok_iff
    {payload : Bytes} :
    decodePublicKey payload = .ok key ↔
      ∃ parameters unused, payload = ((rsaInfo parameters key).unaligned unused).encode ∧
        unused ≤ 7 ∧ (∀ parameter ∈ parameters, IsKnownTag parameter.tag) ∧
        payload.length < lengthLimit ∧ key.size ≤ maxSize := by
  constructor
  · intro accepted
    rw [decodePublicKey] at accepted
    cases found : PublicKeyInfo.decode? payload with
    | none =>
        simp [found, rsaKeyOf] at accepted
    | some info =>
        obtain ⟨⟨identifier, parameters⟩, bytes⟩ := info
        obtain ⟨unused, form, few, _, known, short⟩ :=
          PublicKeyInfo.decode?_eq_some_iff.mp found
        rw [found, rsaKeyOf] at accepted
        by_cases same : identifier = .rsaEncryption
        · obtain rfl := same
          rw [rsaKey_of_same rfl] at accepted
          obtain ⟨rfl, _, size⟩ := PublicKey.decode_eq_ok_iff.mp (eq_ok_of_mapError accepted)
          exact ⟨parameters, unused, form, few, known, short, size⟩
        · rw [rsaKey_of_other same] at accepted
          contradiction
  · rintro ⟨parameters, unused, form, few, known, short, size⟩
    have nonempty : (rsaInfo parameters key).key ≠ [] := List.cons_ne_nil _ _
    have found : PublicKeyInfo.decode? payload = some (rsaInfo parameters key) :=
      PublicKeyInfo.decode?_eq_some_iff.mpr
        ⟨unused, form, few, fun empty => absurd empty nonempty, known, short⟩
    have inside : (rsaInfo parameters key).key.length < lengthLimit := by
      rw [form] at short
      exact PublicKeyInfo.key_lt_unaligned.trans short
    have keyRead : PublicKey.decode (rsaInfo parameters key).key = .ok key :=
      PublicKey.decode_eq_ok_iff.mpr ⟨rfl, inside, size⟩
    rw [decodePublicKey, found, rsaKeyOf, rsaKey_of_same rfl, keyRead]
    rfl

/-- A payload from which a key is loaded has an outline, and follows from it and the key. With
another number of unused bits it is a payload of the same key. -/
theorem payload_of_decodePublicKey
    {payload : Bytes} (accepted : decodePublicKey payload = .ok key) :
    ∃ algorithm unused, outline? payload = some (algorithm, unused) ∧ unused ≤ 7 ∧
      payload = (keyElement algorithm unused key).encode ∧
      ∀ bits ≤ 7, decodePublicKey (keyElement algorithm bits key).encode = .ok key := by
  obtain ⟨parameters, unused, rfl, few, known, short, size⟩ :=
    decodePublicKey_eq_ok_iff.mp accepted
  refine ⟨_, unused, outline?_unaligned short, few, ?_, ?_⟩
  · rw [unaligned_rsaInfo]
  · intro bits fewBits
    rw [unaligned_rsaInfo, length_encode_keyElement _ unused bits] at short
    rw [← unaligned_rsaInfo] at short ⊢
    exact decodePublicKey_eq_ok_iff.mpr ⟨parameters, bits, rfl, fewBits, known, short, size⟩

end Payloads

section Loading

variable {files : FileAccess} {path : String} {payload : Bytes} {key : Rsa.PublicKey}

/-- The payload of a file from which a public key is loaded is the form of that key behind the
payload's own algorithm, apart from the number of unused bits, which does not count. Payloads of one
key with the same algorithm and the same number of unused bits are the same. -/
theorem payload_of_loaded_publicKey
    (block : (readBlock files path).outcome = .ok payload)
    (accepted : (loadPublicKey files path).outcome = .ok key) :
    ∃ algorithm unused, outline? payload = some (algorithm, unused) ∧ unused ≤ 7 ∧
      payload = (keyElement algorithm unused key).encode ∧
      (∀ bits ≤ 7, decodePublicKey (keyElement algorithm bits key).encode = .ok key) ∧
      ∀ otherFiles otherPath other,
        (readBlock otherFiles otherPath).outcome = .ok other →
        (loadPublicKey otherFiles otherPath).outcome = .ok key →
        outline? other = some (algorithm, unused) → other = payload := by
  rw [outcome_loadPublicKey_of_readBlock block] at accepted
  obtain ⟨algorithm, unused, outline, few, form, alike⟩ := payload_of_decodePublicKey accepted
  refine ⟨algorithm, unused, outline, few, form, alike, ?_⟩
  intro otherFiles otherPath other otherBlock otherAccepted sameOutline
  rw [outcome_loadPublicKey_of_readBlock otherBlock] at otherAccepted
  obtain ⟨otherAlgorithm, otherUnused, otherOutline, _, otherForm, _⟩ :=
    payload_of_decodePublicKey otherAccepted
  rw [sameOutline] at otherOutline
  obtain ⟨rfl, rfl⟩ := Prod.mk.inj (Option.some.inj otherOutline)
  rw [form, otherForm]

end Loading

theorem isPublicPair_fifteen : IsPublicPair 15 3 := by
  decide

def keyOfFifteen : Rsa.PublicKey :=
  ⟨15, 3, isPublicPair_fifteen⟩

/-- Information about the key with modulus fifteen, with a number of unused bits. -/
def payloadOfFifteen (unused : UInt8) : Bytes :=
  ((rsaInfo none keyOfFifteen).unaligned unused).encode

theorem length_payloadOfFifteen (unused : UInt8) :
    (payloadOfFifteen unused).length < lengthLimit := by
  rw [payloadOfFifteen, unaligned_rsaInfo, length_encode_keyElement _ unused 0]
  decide +kernel

theorem outline?_payloadOfFifteen (unused : UInt8) :
    outline? (payloadOfFifteen unused) =
      some ((rsaInfo none keyOfFifteen).algorithm.element.encode, unused) :=
  outline?_unaligned (length_payloadOfFifteen unused)

theorem readBlock_payloadOfFifteen (unused : UInt8) :
    (readBlock (.holding (payloadOfFifteen unused)) "key.pem").outcome =
      .ok (payloadOfFifteen unused) :=
  outcome_readBlock (FileAccess.holdsBlock_holding _ _)

theorem loadPublicKey_payloadOfFifteen
    {unused : UInt8} (few : unused ≤ 7) :
    (loadPublicKey (.holding (payloadOfFifteen unused)) "key.pem").outcome =
      .ok keyOfFifteen := by
  have size : keyOfFifteen.size ≤ maxSize := by
    decide
  rw [outcome_loadPublicKey_of_readBlock (readBlock_payloadOfFifteen unused)]
  exact decodePublicKey_eq_ok_iff.mpr
    ⟨none, unused, rfl, few, nofun, length_payloadOfFifteen unused, size⟩

theorem payload_of_loaded_publicKey_of_fifteen :
    ∃ (files : FileAccess) (payload : Bytes),
      (readBlock files "key.pem").outcome = .ok payload ∧
      (loadPublicKey files "key.pem").outcome = .ok keyOfFifteen ∧
      ∃ algorithm unused, outline? payload = some (algorithm, unused) ∧ unused ≤ 7 ∧
        payload = (keyElement algorithm unused keyOfFifteen).encode := by
  have few : (5 : UInt8) ≤ 7 := by
    decide
  have block := readBlock_payloadOfFifteen 5
  have accepted := loadPublicKey_payloadOfFifteen few
  obtain ⟨algorithm, unused, outline, bound, form, _⟩ :=
    payload_of_loaded_publicKey block accepted
  exact ⟨_, _, block, accepted, algorithm, unused, outline, bound, form⟩

/-- A payload with an unused bit is loaded, although it is not made of an algorithm and a bit string
of whole bytes. The payload without that bit has the same algorithm and the same key. -/
theorem unaligned_payload_is_loaded :
    (readBlock (.holding (payloadOfFifteen 1)) "key.pem").outcome = .ok (payloadOfFifteen 1) ∧
    (loadPublicKey (.holding (payloadOfFifteen 1)) "key.pem").outcome = .ok keyOfFifteen ∧
    (∀ algorithm, payloadOfFifteen 1 ≠ (keyElement algorithm 0 keyOfFifteen).encode) ∧
    (loadPublicKey (.holding (payloadOfFifteen 0)) "key.pem").outcome = .ok keyOfFifteen ∧
    (outline? (payloadOfFifteen 0)).map Prod.fst = (outline? (payloadOfFifteen 1)).map Prod.fst ∧
    payloadOfFifteen 0 ≠ payloadOfFifteen 1 := by
  have different : ∀ algorithm,
      payloadOfFifteen 1 ≠ (keyElement algorithm 0 keyOfFifteen).encode := by
    intro algorithm same
    have short := length_payloadOfFifteen 1
    have read := PublicKeyInfo.decodeOnly?_unaligned short
    have otherRead := decodeOnly?_encode
      (show IsKnownTag (keyElement algorithm 0 keyOfFifteen).tag from isKnownTag_sequenceTag)
    rw [← same, if_pos short] at otherRead
    have elements := Option.some.inj (read.symm.trans otherRead)
    rw [unaligned_rsaInfo] at elements
    have contents := congrArg Element.content elements
    have bits := List.append_inj_right' contents (by simp [Element.length_encode])
    exact absurd bits (by decide +kernel)
  refine ⟨readBlock_payloadOfFifteen 1, loadPublicKey_payloadOfFifteen (by decide), different,
    loadPublicKey_payloadOfFifteen (by decide), ?_, ?_⟩
  · rw [outline?_payloadOfFifteen, outline?_payloadOfFifteen]
    rfl
  · intro same
    apply different (rsaInfo none keyOfFifteen).algorithm.element.encode
    rw [← same, payloadOfFifteen, unaligned_rsaInfo]

end KeyStore
