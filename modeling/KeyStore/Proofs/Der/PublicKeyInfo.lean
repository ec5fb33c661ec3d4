import KeyStore.Der.PublicKeyInfo
import KeyStore.Proofs.Der.Primitive

/-!
# Public key information in its only form

Public key information is read from its form, whatever the algorithm is, if the bytes behind the
algorithm are none at all or those of one element with a known tag, and the form is not too long.
It is read from nothing else, except that the bit string of the key may have unused bits.
-/

namespace KeyStore.Der

/-- Bytes are the form of parameters, which are absent or have a known tag. -/
def EncodesParameters (bytes : Bytes) (parameters : Option Element) : Prop :=
  bytes = encodeAll parameters.toList ∧ ∀ element ∈ parameters, IsKnownTag element.tag

/-- Bytes that may stand behind an algorithm: none, or one element with a known tag. -/
def AreParameters (bytes : Bytes) : Prop :=
  ∃ parameters, EncodesParameters bytes parameters

theorem areParameters_nil : AreParameters [] :=
  ⟨none, rfl, nofun⟩

namespace AlgorithmId

def form (identifier : ObjectId) (parameters : Bytes) : Element :=
  ⟨sequenceTag, identifier.element.encode ++ parameters⟩

section Form

variable {identifier : ObjectId} {parameters : Bytes}

theorem parts?_form (small : (form identifier parameters).content.length < lengthLimit) :
    (form identifier parameters).parts? sequenceTag =
      (decodeAll? parameters).map (identifier.element :: ·) := by
  have known : IsKnownTag identifier.element.tag := show IsKnownTag objectIdTag by decide
  have below : identifier.element.content.length < lengthLimit := by
    have inside := identifier.element.content_lt_encode
    rw [form, List.length_append] at small
    omega
  rw [Element.parts?, form, if_pos rfl]
  exact decodeAll?_encode_append ⟨known, below⟩ parameters

theorem ofElement?_form {found : Option Element} (encodes : EncodesParameters parameters found)
    (small : (form identifier parameters).content.length < lengthLimit) :
    ofElement? (form identifier parameters) = some ⟨identifier, found⟩ := by
  have parts := parts?_form small
  obtain ⟨isForm, known⟩ := encodes
  have split : decodeAll? parameters = some found.toList := by
    refine decodeAll?_eq_some_iff.mpr ⟨isForm, fun element member => ?_⟩
    have inside := element.content_lt_encode.trans_le (length_encode_le_encodeAll member)
    rw [form, List.length_append, isForm] at small
    exact ⟨known element (Option.mem_toList.mp member), by omega⟩
  rw [split] at parts
  cases found with
  | none =>
      rw [Option.toList_none] at parts
      simp only [ofElement?, parts, Option.map_some, ObjectId.objectId?_element]
  | some only =>
      rw [Option.toList_some] at parts
      simp only [ofElement?, parts, Option.map_some, ObjectId.objectId?_element]

theorem ofElement?_form_eq_none (other : ¬AreParameters parameters)
    (small : (form identifier parameters).content.length < lengthLimit) :
    ofElement? (form identifier parameters) = none := by
  have parts := parts?_form small
  cases split : decodeAll? parameters with
  | none =>
      rw [split] at parts
      simp only [ofElement?, parts, Option.map_none]
  | some elements =>
      obtain ⟨isForm, readable⟩ := decodeAll?_eq_some_iff.mp split
      match elements with
      | [] =>
          exact absurd ⟨none, isForm, nofun⟩ other
      | [only] =>
          refine absurd ⟨some only, isForm, ?_⟩ other
          rintro _ ⟨⟩
          exact (readable only List.mem_cons_self).1
      | first :: second :: rest =>
          rw [split] at parts
          simp only [ofElement?, parts, Option.map_some, ObjectId.objectId?_element]

end Form

theorem eq_element_of_ofElement?
    {element : Element} {algorithm : AlgorithmId}
    (read : ofElement? element = some algorithm) :
    element = algorithm.element ∧
      ∀ parameter ∈ algorithm.parameters, IsKnownTag parameter.tag := by
  unfold ofElement? at read
  split at read
  · next first parameters split =>
      obtain ⟨form, readable⟩ := Element.parts?_eq_some_iff.mp split
      split at read
      · next identifier found =>
          obtain rfl := Element.objectId?_eq_some_iff.mp found
          obtain rfl := Option.some.inj read
          exact ⟨form, nofun⟩
      · next identifier only found =>
          obtain rfl := Element.objectId?_eq_some_iff.mp found
          obtain rfl := Option.some.inj read
          refine ⟨form, ?_⟩
          rintro _ ⟨⟩
          have member : only ∈ [identifier.element, only] := by simp
          exact (readable only member).1
      · contradiction
  · contradiction

end AlgorithmId

namespace PublicKeyInfo

theorem parts?_pair
    {algorithm bits : Element} (isSequence : algorithm.tag = sequenceTag)
    (isBits : bits.tag = bitStringTag)
    (short : (Element.ofParts sequenceTag [algorithm, bits]).encode.length < lengthLimit) :
    (Element.ofParts sequenceTag [algorithm, bits]).parts? sequenceTag =
      some [algorithm, bits] := by
  have first : IsKnownTag algorithm.tag := by
    rw [isSequence]
    exact isKnownTag_sequenceTag
  have second : IsKnownTag bits.tag := by
    rw [isBits]
    decide
  have known : ∀ part ∈ [algorithm, bits], IsKnownTag part.tag :=
    List.forall_mem_cons.mpr ⟨first, List.forall_mem_singleton.mpr second⟩
  exact Element.parts?_ofParts known ((Element.content_lt_encode _).trans short)

/-- The element of public key information with any bytes behind the algorithm. -/
def form (identifier : ObjectId) (parameters key : Bytes) : Element :=
  .ofParts sequenceTag [AlgorithmId.form identifier parameters, .ofBits key]

section Form

variable {identifier : ObjectId} {parameters key : Bytes}

/-- The two parts are split, whatever stands behind the algorithm. -/
theorem parts?_form (short : (form identifier parameters key).encode.length < lengthLimit) :
    (form identifier parameters key).parts? sequenceTag =
      some [AlgorithmId.form identifier parameters, .ofBits key] :=
  parts?_pair rfl rfl short

theorem algorithm_lt_form :
    (AlgorithmId.form identifier parameters).content.length <
      (form identifier parameters key).encode.length :=
  calc (AlgorithmId.form identifier parameters).content.length
    _ < (form identifier parameters key).content.length :=
        Element.content_lt_ofParts _ List.mem_cons_self
    _ < (form identifier parameters key).encode.length := Element.content_lt_encode _

theorem key_lt_form : key.length < (form identifier parameters key).encode.length :=
  calc key.length
    _ < (Element.ofBits key).encode.length := Element.length_lt_ofBits key
    _ < (form identifier parameters key).encode.length :=
        Element.encode_lt_ofParts _ (List.mem_cons_of_mem _ List.mem_cons_self)

theorem decode?_form {found : Option Element} (encodes : EncodesParameters parameters found)
    (short : (form identifier parameters key).encode.length < lengthLimit) :
    PublicKeyInfo.decode? (form identifier parameters key).encode =
      some ⟨⟨identifier, found⟩, key⟩ := by
  have known : IsKnownTag (form identifier parameters key).tag := isKnownTag_sequenceTag
  have read := decodeOnly?_encode known
  have algorithm := AlgorithmId.ofElement?_form encodes (algorithm_lt_form.trans short)
  rw [if_pos short] at read
  simp only [PublicKeyInfo.decode?, read, ofElement?, parts?_form short, algorithm,
    Element.bits?_ofBits]

/-- Information with other bytes behind the algorithm is refused, and so is one that is too long. -/
theorem decode?_form_eq_none (refused : ¬(AreParameters parameters ∧
      (form identifier parameters key).encode.length < lengthLimit)) :
    PublicKeyInfo.decode? (form identifier parameters key).encode = none := by
  have known : IsKnownTag (form identifier parameters key).tag := isKnownTag_sequenceTag
  have read := decodeOnly?_encode known
  by_cases short : (form identifier parameters key).encode.length < lengthLimit
  · have other : ¬AreParameters parameters := fun allowed => refused ⟨allowed, short⟩
    have algorithm := AlgorithmId.ofElement?_form_eq_none other (algorithm_lt_form.trans short)
    rw [if_pos short] at read
    simp only [PublicKeyInfo.decode?, read, ofElement?, parts?_form short, algorithm]
  · rw [if_neg short] at read
    rw [PublicKeyInfo.decode?, read]

end Form

/-- The element of a public key with a number of unused bits in its bit string. -/
def unaligned (info : PublicKeyInfo) (unused : UInt8) : Element :=
  .ofParts sequenceTag [info.algorithm.element, ⟨bitStringTag, unused :: info.key⟩]

section Unaligned

variable {info : PublicKeyInfo} {unused : UInt8}

theorem parts?_unaligned
    (short : (info.unaligned unused).encode.length < lengthLimit) :
    (info.unaligned unused).parts? sequenceTag =
      some [info.algorithm.element, ⟨bitStringTag, unused :: info.key⟩] :=
  parts?_pair rfl rfl short

theorem decodeOnly?_unaligned
    (short : (info.unaligned unused).encode.length < lengthLimit) :
    decodeOnly? (info.unaligned unused).encode = some (info.unaligned unused) := by
  have known : IsKnownTag (info.unaligned unused).tag := isKnownTag_sequenceTag
  rw [decodeOnly?_encode known, if_pos short]

theorem key_lt_unaligned : info.key.length < (info.unaligned unused).encode.length :=
  calc info.key.length
    _ < (Element.mk bitStringTag (unused :: info.key)).content.length := Nat.lt_succ_self _
    _ < (info.unaligned unused).content.length :=
        Element.content_lt_ofParts _ (List.mem_cons_of_mem _ List.mem_cons_self)
    _ < (info.unaligned unused).encode.length := Element.content_lt_encode _

/-- Public key information is read from its own algorithm and key, with up to seven unused bits. -/
theorem decode?_eq_some_iff
    {bytes : Bytes} {info : PublicKeyInfo} :
    decode? bytes = some info ↔
      ∃ unused, bytes = (info.unaligned unused).encode ∧ unused ≤ 7 ∧
        (info.key = [] → unused = 0) ∧
        (∀ parameter ∈ info.algorithm.parameters, IsKnownTag parameter.tag) ∧
        bytes.length < lengthLimit := by
  constructor
  · intro read
    unfold decode? at read
    split at read
    · next element found =>
        obtain ⟨isForm, _, short⟩ := decodeOnly?_eq_some_iff.mp found
        unfold ofElement? at read
        split at read
        · next first second split =>
            obtain ⟨form, _⟩ := Element.parts?_eq_some_iff.mp split
            split at read
            · next algorithm key algorithmRead keyRead =>
                obtain rfl := Option.some.inj read
                obtain ⟨rfl, known⟩ := AlgorithmId.eq_element_of_ofElement? algorithmRead
                obtain ⟨unused, rfl, few, empty⟩ := Element.bits?_eq_some_iff.mp keyRead
                refine ⟨unused, ?_, few, empty, known, short⟩
                rw [isForm, form]
                rfl
            · contradiction
        · contradiction
    · contradiction
  · rintro ⟨unused, rfl, few, empty, known, short⟩
    have inside : (AlgorithmId.form info.algorithm.algorithm
        (encodeAll info.algorithm.parameters.toList)).content.length < lengthLimit := by
      have part := Element.content_lt_ofParts sequenceTag
        (List.mem_cons_self (a := info.algorithm.element)
          (l := [⟨bitStringTag, unused :: info.key⟩]))
      exact (part.trans (Element.content_lt_encode _)).trans short
    have algorithm : AlgorithmId.ofElement? info.algorithm.element = some info.algorithm :=
      AlgorithmId.ofElement?_form ⟨rfl, known⟩ inside
    have key : (Element.mk bitStringTag (unused :: info.key)).bits? = some info.key :=
      Element.bits?_eq_some_iff.mpr ⟨unused, rfl, few, empty⟩
    simp only [decode?, decodeOnly?_unaligned short, ofElement?, parts?_unaligned short, algorithm,
      key]

end Unaligned

end PublicKeyInfo

end KeyStore.Der
