import KeyStore.Der.Element
import KeyStore.Proofs.BigEndian

/-!
# The only form of an element

A byte string is read as an element exactly if it is the form of that element, its tag is known and
it is not too long. The same holds of rows of elements, so that reading and writing are inverse to
each other on elements that can be read.
-/

namespace KeyStore.Der

theorem encodeLength_short {length : Nat} (short : length < 0x80) :
    encodeLength length = [UInt8.ofNat length] :=
  if_pos short

theorem encodeLength_long {length : Nat} (long : ¬length < 0x80) :
    encodeLength length =
      UInt8.ofNat (0x80 + (Bytes.ofNat length).length) :: Bytes.ofNat length :=
  if_neg long

/-- The digits of a length below the limit fill one to four bytes. -/
theorem length_digits {length : Nat} (small : length < lengthLimit) :
    1 ≤ (Bytes.ofNat length).length ∧ (Bytes.ofNat length).length ≤ 4 := by
  constructor
  · exact List.length_pos_iff.mpr (Bytes.ofNat_ne_nil length)
  · have room : lengthLimit ≤ 256 ^ 4 := by decide
    exact Bytes.length_ofNat_le (by decide) (small.trans_le room)

theorem length_encodeLength_le
    {length : Nat} (small : length < lengthLimit) :
    (encodeLength length).length ≤ 5 := by
  by_cases short : length < 0x80
  · rw [encodeLength_short short, List.length_singleton]
    decide
  · have few := (length_digits small).2
    rw [encodeLength_long short, List.length_cons]
    omega

theorem decodeLength?_encodeLength {length : Nat} (small : length < lengthLimit) (rest : Bytes) :
    decodeLength? (encodeLength length ++ rest) = some (length, rest) := by
  by_cases short : length < 0x80
  · have value : (UInt8.ofNat length).toNat = length :=
      UInt8.toNat_ofNat_of_lt' (show length < 256 by omega)
    have low : UInt8.ofNat length < 0x80 := by
      rw [UInt8.lt_iff_toNat_lt, value]
      exact short
    rw [encodeLength_short short, List.singleton_append, decodeLength?, if_pos low, value]
  · obtain ⟨some, few⟩ := length_digits small
    have value : (UInt8.ofNat (0x80 + (Bytes.ofNat length).length)).toNat =
        0x80 + (Bytes.ofNat length).length :=
      UInt8.toNat_ofNat_of_lt' (show 0x80 + (Bytes.ofNat length).length < 256 by omega)
    have high : ¬UInt8.ofNat (0x80 + (Bytes.ofNat length).length) < 0x80 := by
      rw [UInt8.lt_iff_toNat_lt, value]
      exact Nat.not_lt.mpr (Nat.le_add_right _ _)
    rw [encodeLength_long short, List.cons_append, decodeLength?, if_neg high]
    simp only [value, Nat.add_sub_cancel_left, List.take_left, List.drop_left, Bytes.toNat_ofNat]
    rw [if_pos ⟨some, few, small, encodeLength_long short⟩]

theorem decodeLength?_eq_some_iff {bytes rest : Bytes} {length : Nat} :
    decodeLength? bytes = some (length, rest) ↔
      bytes = encodeLength length ++ rest ∧ length < lengthLimit := by
  constructor
  · intro read
    unfold decodeLength? at read
    split at read
    · contradiction
    · next first behind =>
        split at read
        · next low =>
            have short : first.toNat < 0x80 := UInt8.lt_iff_toNat_lt.mp low
            have room : 0x80 ≤ lengthLimit := by decide
            obtain ⟨rfl, rfl⟩ := Prod.mk.inj (Option.some.inj read)
            refine ⟨?_, short.trans_le room⟩
            rw [encodeLength_short short, UInt8.ofNat_toNat, List.singleton_append]
        · simp only at read
          split at read
          · next fits =>
              obtain ⟨-, -, small, form⟩ := fits
              obtain ⟨rfl, rfl⟩ := Prod.mk.inj (Option.some.inj read)
              refine ⟨?_, small⟩
              rw [form, List.cons_append, List.take_append_drop]
          · contradiction
  · rintro ⟨rfl, small⟩
    exact decodeLength?_encodeLength small rest

namespace Element

/-- An element that can be read: its tag is known, and its content is not too long. -/
def IsReadable (element : Element) : Prop :=
  IsKnownTag element.tag ∧ element.content.length < lengthLimit

theorem length_encode (element : Element) :
    element.encode.length =
      1 + (encodeLength element.content.length).length + element.content.length := by
  rw [encode, List.cons_append, List.length_cons, List.length_append]
  omega

theorem length_encode_le
    {element : Element} (small : element.content.length < lengthLimit) :
    element.encode.length ≤ element.content.length + 6 := by
  have header := length_encodeLength_le small
  rw [length_encode]
  omega

theorem content_lt_encode (element : Element) :
    element.content.length < element.encode.length := by
  rw [length_encode]
  omega

end Element

/-- An element is read from its only form. -/
theorem decode?_eq_some_iff {bytes rest : Bytes} {element : Element} :
    decode? bytes = some (element, rest) ↔
      bytes = element.encode ++ rest ∧ element.IsReadable := by
  constructor
  · intro read
    unfold decode? at read
    split at read
    · contradiction
    · next tag behind =>
        split at read
        · next known =>
            split at read
            · next length tail lengthRead =>
                obtain ⟨form, small⟩ := decodeLength?_eq_some_iff.mp lengthRead
                split at read
                · next enough =>
                    obtain ⟨rfl, rfl⟩ := Prod.mk.inj (Option.some.inj read)
                    have contentLength : (tail.take length).length = length := by
                      rw [List.length_take, Nat.min_eq_left enough]
                    refine ⟨?_, known, ?_⟩
                    · rw [Element.encode]
                      simp only [contentLength, form, List.cons_append, List.append_assoc,
                        List.take_append_drop]
                    · simp only [contentLength, small]
                · contradiction
            · contradiction
        · contradiction
  · rintro ⟨rfl, known, small⟩
    have lengthRead := decodeLength?_encodeLength small (element.content ++ rest)
    have enough : element.content.length ≤ (element.content ++ rest).length := by
      rw [List.length_append]
      exact Nat.le_add_right _ _
    rw [Element.encode, List.cons_append, List.cons_append, List.append_assoc, decode?,
      if_pos known, lengthRead]
    simp only [if_pos enough, List.take_left, List.drop_left]

/-- A byte string is one element exactly if it is the form of that element, short enough. -/
theorem decodeOnly?_eq_some_iff {bytes : Bytes} {element : Element} :
    decodeOnly? bytes = some element ↔
      bytes = element.encode ∧ IsKnownTag element.tag ∧ bytes.length < lengthLimit := by
  constructor
  · intro read
    unfold decodeOnly? at read
    split at read
    · next short =>
        split at read
        · next found elementRead =>
            obtain ⟨form, known, _⟩ := decode?_eq_some_iff.mp elementRead
            rw [List.append_nil] at form
            rw [← Option.some.inj read]
            exact ⟨form, known, short⟩
        · contradiction
    · contradiction
  · rintro ⟨rfl, known, short⟩
    have readable : element.IsReadable := ⟨known, element.content_lt_encode.trans short⟩
    have read : decode? element.encode = some (element, []) :=
      decode?_eq_some_iff.mpr ⟨(List.append_nil _).symm, readable⟩
    rw [decodeOnly?, if_pos short, read]

theorem decodeOnly?_encode {element : Element} (known : IsKnownTag element.tag) :
    decodeOnly? element.encode =
      if element.encode.length < lengthLimit then some element else none := by
  by_cases short : element.encode.length < lengthLimit
  · rw [if_pos short]
    exact decodeOnly?_eq_some_iff.mpr ⟨rfl, known, short⟩
  · rw [if_neg short, decodeOnly?, if_neg short]

theorem encodeAll_cons (element : Element) (elements : List Element) :
    encodeAll (element :: elements) = element.encode ++ encodeAll elements :=
  List.flatMap_cons

theorem decodeAll?_nil : decodeAll? [] = some [] := by
  rw [decodeAll?, if_pos rfl]

theorem decodeAll?_encode_append {element : Element} (readable : element.IsReadable)
    (rest : Bytes) :
    decodeAll? (element.encode ++ rest) = (decodeAll? rest).map (element :: ·) := by
  have nonempty : element.encode ++ rest ≠ [] := List.cons_ne_nil _ _
  have first : decode? (element.encode ++ rest) = some (element, rest) :=
    decode?_eq_some_iff.mpr ⟨rfl, readable⟩
  rw [decodeAll?, if_neg nonempty]
  split
  · next missing =>
      rw [first] at missing
      contradiction
  · next found behind read =>
      rw [first] at read
      obtain ⟨rfl, rfl⟩ := Prod.mk.inj (Option.some.inj read)
      cases decodeAll? rest <;> rfl

/-- A byte string is a row of elements exactly if it is the form of that row. -/
theorem decodeAll?_eq_some_iff {bytes : Bytes} {elements : List Element} :
    decodeAll? bytes = some elements ↔
      bytes = encodeAll elements ∧ ∀ element ∈ elements, element.IsReadable := by
  constructor
  · intro read
    -- The row shrinks with each element that is split off, so its length carries the induction.
    induction size : bytes.length using Nat.strongRecOn generalizing bytes elements with
    | ind size inductionHypothesis =>
        unfold decodeAll? at read
        split at read
        · next empty =>
            rw [← Option.some.inj read]
            exact ⟨empty, fun _ member => absurd member List.not_mem_nil⟩
        · split at read
          · contradiction
          · next element rest elementRead =>
              obtain ⟨form, readable⟩ := decode?_eq_some_iff.mp elementRead
              have shorter := decode?_length elementRead
              split at read
              · contradiction
              · next others othersRead =>
                  obtain ⟨othersForm, othersReadable⟩ :=
                    inductionHypothesis rest.length (size ▸ shorter) othersRead rfl
                  rw [← Option.some.inj read]
                  refine ⟨?_, List.forall_mem_cons.mpr ⟨readable, othersReadable⟩⟩
                  rw [form, othersForm, encodeAll_cons]
  · rintro ⟨rfl, readable⟩
    induction elements with
    | nil =>
        exact decodeAll?_nil
    | cons element elements inductionHypothesis =>
        obtain ⟨first, others⟩ := List.forall_mem_cons.mp readable
        rw [encodeAll_cons, decodeAll?_encode_append first, inductionHypothesis others]
        rfl

theorem length_encode_le_encodeAll {elements : List Element} {element : Element}
    (member : element ∈ elements) :
    element.encode.length ≤ (encodeAll elements).length := by
  induction elements with
  | nil =>
      exact absurd member List.not_mem_nil
  | cons first rest inductionHypothesis =>
      rw [encodeAll_cons, List.length_append]
      rcases List.mem_cons.mp member with rfl | inRest
      · exact Nat.le_add_right _ _
      · exact (inductionHypothesis inRest).trans (Nat.le_add_left _ _)

/-- A row is no longer than as many elements of the greatest length. -/
theorem length_encodeAll_le
    {elements : List Element} {greatest : Nat}
    (bound : ∀ element ∈ elements, element.encode.length ≤ greatest) :
    (encodeAll elements).length ≤ elements.length * greatest := by
  induction elements with
  | nil =>
      exact Nat.zero_le _
  | cons first rest inductionHypothesis =>
      obtain ⟨firstBound, restBound⟩ := List.forall_mem_cons.mp bound
      have others := inductionHypothesis restBound
      rw [encodeAll_cons, List.length_append, List.length_cons, Nat.succ_mul]
      omega

theorem isKnownTag_sequenceTag : IsKnownTag sequenceTag := by
  decide

namespace Element

/-- An element has the given parts exactly if it is made of them. -/
theorem parts?_eq_some_iff {tag : UInt8} {element : Element} {parts : List Element} :
    element.parts? tag = some parts ↔
      element = .ofParts tag parts ∧ ∀ part ∈ parts, part.IsReadable := by
  constructor
  · intro read
    unfold parts? at read
    split at read
    · next sameTag =>
        obtain ⟨form, readable⟩ := decodeAll?_eq_some_iff.mp read
        exact ⟨Element.ext sameTag form, readable⟩
    · contradiction
  · rintro ⟨rfl, readable⟩
    rw [parts?, ofParts, if_pos rfl]
    exact decodeAll?_eq_some_iff.mpr ⟨rfl, readable⟩

theorem tag_of_parts {tag : UInt8} {element : Element} {parts : List Element}
    (split : element.parts? tag = some parts) : element.tag = tag := by
  rw [(parts?_eq_some_iff.mp split).1]
  rfl

theorem isKnownTag_of_parts {element : Element} {parts : List Element}
    (split : element.parts? sequenceTag = some parts) : IsKnownTag element.tag := by
  rw [tag_of_parts split]
  exact isKnownTag_sequenceTag

theorem content_lt_ofParts (tag : UInt8) {parts : List Element} {part : Element}
    (member : part ∈ parts) :
    part.content.length < (ofParts tag parts).content.length :=
  part.content_lt_encode.trans_le (length_encode_le_encodeAll member)

theorem encode_lt_ofParts (tag : UInt8) {parts : List Element} {part : Element}
    (member : part ∈ parts) :
    part.encode.length < (ofParts tag parts).encode.length :=
  (length_encode_le_encodeAll member).trans_lt (ofParts tag parts).content_lt_encode

/-- The parts of a constructed element that is short enough are read back if their tags are known.
-/
theorem parts?_ofParts {tag : UInt8} {parts : List Element}
    (known : ∀ part ∈ parts, IsKnownTag part.tag)
    (small : (ofParts tag parts).content.length < lengthLimit) :
    (ofParts tag parts).parts? tag = some parts := by
  refine parts?_eq_some_iff.mpr ⟨rfl, fun part member => ⟨known part member, ?_⟩⟩
  exact (content_lt_ofParts tag member).trans small

end Element

end KeyStore.Der
