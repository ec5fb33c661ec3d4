import KeyStore.Der.ObjectId
import KeyStore.Der.Primitive
import KeyStore.Proofs.Der.Element

/-!
# Primitive values in their only form

The form of an integer writes it in two's complement without needless bytes. Only natural numbers
are read back, each from its form alone, and a row of integers is read if none of them is negative.
-/

namespace KeyStore

theorem Bytes.toNat_complement (bytes : Bytes) :
    Bytes.toNat (bytes.map (~~~ ·)) + Bytes.toNat bytes + 1 = 256 ^ bytes.length := by
  induction bytes with
  | nil =>
      rfl
  | cons byte rest inductionHypothesis =>
      have bound := byte.toNat_lt
      have complement : (~~~byte).toNat = 255 - byte.toNat := UInt8.toNat_not byte
      have high : (255 - byte.toNat) * 256 ^ rest.length + byte.toNat * 256 ^ rest.length =
          255 * 256 ^ rest.length := by
        rw [← Nat.add_mul, Nat.sub_add_cancel (show byte.toNat ≤ 255 by omega)]
      rw [List.map_cons, Bytes.toNat_cons, Bytes.toNat_cons, List.length_map, List.length_cons,
        complement, Nat.pow_succ']
      omega

namespace Der

theorem exists_encodeNat_eq (number : Nat) :
    ∃ first rest, encodeNat number = first :: rest ∧ first < 0x80 ∧
      Bytes.toNat (first :: rest) = number ∧ IsMinimalInteger (first :: rest) := by
  rcases Nat.eq_zero_or_pos number with rfl | positive
  · refine ⟨0, [], ?_, by decide, rfl, True.intro⟩
    rw [encodeNat, Bytes.ofNat, if_pos (by decide)]
    rfl
  · obtain ⟨first, rest, form, nonzero⟩ := Bytes.exists_ofNat_eq_cons positive
    have value := Bytes.toNat_ofNat number
    rw [form] at value
    by_cases high : 0x80 ≤ first
    · refine ⟨0, first :: rest, ?_, by decide, ?_, ?_⟩
      · rw [encodeNat, form]
        exact if_pos high
      · rw [Bytes.toNat_cons, value]
        simp
      · exact ⟨fun low => absurd low.2 (UInt8.not_lt.mpr high), fun full => by simp at full⟩
    · have low : first < 0x80 := UInt8.not_le.mp high
      refine ⟨first, rest, ?_, low, value, ?_⟩
      · rw [encodeNat, form]
        exact if_neg high
      · cases rest with
        | nil =>
            exact True.intro
        | cons second others =>
            refine ⟨fun zero => nonzero zero.1, fun full => ?_⟩
            rw [full.1] at low
            exact absurd low (by decide)

theorem length_encodeNat_le
    {number width : Nat} (positive : 0 < width) (small : number < 256 ^ width) :
    (encodeNat number).length ≤ width + 1 := by
  have digits := Bytes.length_ofNat_le positive small
  rw [encodeNat]
  cases form : Bytes.ofNat number with
  | nil =>
      exact Nat.zero_le _
  | cons first rest =>
      rw [form] at digits
      by_cases high : 0x80 ≤ first
      · simp only [if_pos high]
        exact Nat.succ_le_succ digits
      · simp only [if_neg high]
        exact digits.trans (Nat.le_succ width)

/-- A content with its first bit clear and without needless bytes is that of its number. -/
theorem encodeNat_toNat
    {content : Bytes}
    (minimal : IsMinimalInteger content) (low : content.headD 0 < 0x80) :
    encodeNat (Bytes.toNat content) = content := by
  match content with
  | [] => exact absurd minimal id
  | [only] =>
      have value : Bytes.toNat [only] = only.toNat := by
        simp [Bytes.toNat]
      have form : Bytes.ofNat only.toNat = [only] := by
        rw [Bytes.ofNat, if_pos only.toNat_lt, UInt8.ofNat_toNat]
      rw [value, encodeNat, form]
      exact if_neg (UInt8.not_le.mpr low)
  | first :: second :: rest =>
      obtain ⟨notZero, _⟩ := minimal
      by_cases zero : first = 0
      · subst zero
        have high : 0x80 ≤ second := by
          apply UInt8.not_lt.mp
          intro secondLow
          exact notZero ⟨rfl, secondLow⟩
        have nonzero : second ≠ 0 := by
          rintro rfl
          exact absurd high (by decide)
        have value : Bytes.toNat (0 :: second :: rest) = Bytes.toNat (second :: rest) := by
          rw [Bytes.toNat_cons 0]
          simp
        rw [value, encodeNat, Bytes.ofNat_toNat rest nonzero]
        exact if_pos high
      · rw [encodeNat, Bytes.ofNat_toNat (second :: rest) zero]
        exact if_neg (UInt8.not_le.mpr low)

/-! ## Integers -/

/-- The integer of a content in two's complement. -/
def integerValue (content : Bytes) : Int :=
  if content.headD 0 < 0x80 then
    Bytes.toNat content
  else
    (Bytes.toNat content : Int) - (256 : Int) ^ content.length

theorem complement_high {byte : UInt8} : 0x80 ≤ ~~~byte ↔ byte < 0x80 := by
  have complement : (~~~byte).toNat = 255 - byte.toNat := UInt8.toNat_not byte
  have bound := byte.toNat_lt
  have threshold : (0x80 : UInt8).toNat = 128 := rfl
  rw [UInt8.le_iff_toNat_le, UInt8.lt_iff_toNat_lt, complement, threshold]
  omega

theorem integerValue_encodeInt (number : Int) : integerValue (encodeInt number) = number := by
  cases number with
  | ofNat number =>
      obtain ⟨first, rest, form, low, value, _⟩ := exists_encodeNat_eq number
      rw [encodeInt, form, integerValue, List.headD_cons, if_pos low, value]
      rfl
  | negSucc number =>
      obtain ⟨first, rest, form, low, value, _⟩ := exists_encodeNat_eq number
      have high : ¬((first :: rest).map (~~~ ·)).headD 0 < 0x80 :=
        UInt8.not_lt.mpr (complement_high.mpr low)
      have sum := Bytes.toNat_complement (first :: rest)
      rw [value] at sum
      have sumInt : (Bytes.toNat ((first :: rest).map (~~~ ·)) : Int) + number + 1 =
          (256 : Int) ^ (first :: rest).length := by
        exact_mod_cast sum
      rw [encodeInt, form, integerValue, if_neg high, List.length_map, Int.negSucc_eq]
      omega

theorem isMinimalInteger_complement {content : Bytes} (minimal : IsMinimalInteger content) :
    IsMinimalInteger (content.map (~~~ ·)) := by
  match content with
  | [] => exact minimal
  | [_] => exact True.intro
  | first :: second :: rest =>
      have zero : ~~~first = 0 ↔ first = 0xff := by
        rw [UInt8.not_eq_comm]
        rfl
      have full : ~~~first = 0xff ↔ first = 0 := by
        rw [UInt8.not_eq_comm]
        rfl
      have low : ~~~second < 0x80 ↔ 0x80 ≤ second := by
        rw [← UInt8.not_le, complement_high, UInt8.not_lt]
      obtain ⟨notZero, notFull⟩ := minimal
      refine ⟨?_, ?_⟩
      · rw [zero, low]
        exact notFull
      · rw [full, complement_high]
        exact notZero

theorem isMinimalInteger_encodeInt (number : Int) : IsMinimalInteger (encodeInt number) := by
  cases number with
  | ofNat number =>
      obtain ⟨first, rest, form, _, _, minimal⟩ := exists_encodeNat_eq number
      rw [encodeInt, form]
      exact minimal
  | negSucc number =>
      obtain ⟨first, rest, form, _, _, minimal⟩ := exists_encodeNat_eq number
      rw [encodeInt, form]
      exact isMinimalInteger_complement minimal

namespace Element

/-- Natural numbers are read back, and negative numbers are refused. -/
theorem nat?_ofInt (number : Int) :
    (ofInt number).nat? = if 0 ≤ number then some number.toNat else none := by
  cases number with
  | ofNat number =>
      obtain ⟨first, rest, form, low, value, minimal⟩ := exists_encodeNat_eq number
      have natural : 0 ≤ Int.ofNat number := Int.natCast_nonneg number
      rw [if_pos natural, nat?, ofInt, encodeInt, form, if_pos ⟨rfl, minimal, low⟩, value]
      rfl
  | negSucc number =>
      obtain ⟨first, rest, form, low, _, _⟩ := exists_encodeNat_eq number
      have high : ¬~~~first < 0x80 := UInt8.not_lt.mpr (complement_high.mpr low)
      rw [if_neg (Int.not_le.mpr (Int.negSucc_lt_zero number)), nat?, ofInt, encodeInt, form]
      exact if_neg fun natural => high natural.2.2

theorem nat?_eq_some_iff
    {element : Element} {number : Nat} :
    element.nat? = some number ↔ element = ofInt number := by
  constructor
  · intro read
    unfold nat? at read
    split at read
    · next natural =>
        obtain ⟨tag, minimal, low⟩ := natural
        obtain rfl := Option.some.inj read
        apply Element.ext tag
        exact (encodeNat_toNat minimal low).symm
    · contradiction
  · rintro rfl
    rw [nat?_ofInt, if_pos (Int.natCast_nonneg number), Int.toNat_natCast]

theorem bitLength_le_ofInt (number : Nat) :
    bitLength number ≤ 8 * (ofInt number).content.length := by
  obtain ⟨first, rest, form, _, value, _⟩ := exists_encodeNat_eq number
  have content : (ofInt number).content = first :: rest := form
  rw [content, ← value]
  exact bitLength_toNat_le (first :: rest)

/-- A row of numbers that fit in a width takes up to seven bytes more for each of them. -/
theorem length_encodeAll_ofInt_le
    {numbers : List Nat} {width : Nat} (positive : 0 < width) (few : width + 1 < lengthLimit)
    (small : ∀ number ∈ numbers, number < 256 ^ width) :
    (encodeAll (numbers.map fun (number : Nat) => ofInt number)).length ≤
      numbers.length * (width + 7) := by
  have bound : ∀ element ∈ numbers.map fun (number : Nat) => ofInt number,
      element.encode.length ≤ width + 7 := by
    intro element member
    obtain ⟨number, inRow, rfl⟩ := List.mem_map.mp member
    have content : (ofInt number).content.length ≤ width + 1 :=
      length_encodeNat_le positive (small number inRow)
    have encoded := length_encode_le (content.trans_lt few)
    omega
  have row := length_encodeAll_le bound
  rwa [List.length_map] at row

theorem isKnownTag_ofInt (number : Int) : IsKnownTag (ofInt number).tag :=
  show IsKnownTag integerTag by decide

theorem exists_le_length_ofInt (limit : Nat) :
    ∃ number : Nat, limit ≤ (ofInt number).content.length := by
  refine ⟨2 ^ (8 * limit), ?_⟩
  have bits := bitLength_le_ofInt (2 ^ (8 * limit))
  have many : ¬bitLength (2 ^ (8 * limit)) ≤ 8 * limit := by
    rw [bitLength_le_iff]
    exact Nat.lt_irrefl _
  omega

theorem mapM_nat?_ofInt (numbers : List Int) :
    (numbers.map ofInt).mapM nat? =
      if ∀ number ∈ numbers, 0 ≤ number then some (numbers.map Int.toNat) else none := by
  induction numbers with
  | nil =>
      simp
  | cons number rest inductionHypothesis =>
      rw [List.map_cons, List.mapM_cons, nat?_ofInt, inductionHypothesis]
      by_cases first : 0 ≤ number
      · by_cases others : ∀ other ∈ rest, 0 ≤ other
        · rw [if_pos first, if_pos others, if_pos (List.forall_mem_cons.mpr ⟨first, others⟩)]
          rfl
        · rw [if_pos first, if_neg others,
            if_neg fun all => others (List.forall_mem_cons.mp all).2]
          rfl
      · rw [if_neg first, if_neg fun all => first (List.forall_mem_cons.mp all).1]
        rfl

/-- A row of natural numbers is read from the row of their forms. -/
theorem mapM_nat?_eq_some_iff
    {elements : List Element} {numbers : List Nat} :
    elements.mapM nat? = some numbers ↔
      elements = numbers.map fun (number : Nat) => ofInt number := by
  constructor
  · intro read
    induction elements generalizing numbers with
    | nil =>
        obtain rfl := Option.some.inj read
        rfl
    | cons element rest inductionHypothesis =>
        rw [List.mapM_cons] at read
        cases firstRead : element.nat? with
        | none =>
            simp [firstRead] at read
        | some number =>
            cases restRead : rest.mapM nat? with
            | none =>
                simp [firstRead, restRead] at read
            | some others =>
                obtain rfl : number :: others = numbers := by
                  simpa [firstRead, restRead] using read
                rw [List.map_cons, ← inductionHypothesis restRead, ← nat?_eq_some_iff.mp firstRead]
  · rintro rfl
    have natural := mapM_nat?_ofInt (numbers.map Int.ofNat)
    have nonnegative : ∀ number ∈ numbers.map Int.ofNat, 0 ≤ number := by
      simp
    rw [if_pos nonnegative, List.map_map, List.map_map] at natural
    simpa [Function.comp_def] using natural

/-- A bit string is read from its bytes behind the number of unused bits. -/
theorem bits?_eq_some_iff
    {element : Element} {bytes : Bytes} :
    element.bits? = some bytes ↔
      ∃ unused, element = ⟨bitStringTag, unused :: bytes⟩ ∧ unused ≤ 7 ∧
        (bytes = [] → unused = 0) := by
  obtain ⟨tag, content⟩ := element
  rw [Element.bits?]
  constructor
  · intro read
    split at read
    · next sameTag =>
        cases content with
        | nil => contradiction
        | cons unused others =>
            rw [Der.bits?] at read
            split at read
            · next allowed =>
                obtain rfl := Option.some.inj read
                exact ⟨unused, Element.ext sameTag rfl, allowed.1, allowed.2⟩
            · contradiction
    · contradiction
  · rintro ⟨unused, same, few, empty⟩
    cases same
    rw [if_pos rfl, Der.bits?, if_pos ⟨few, empty⟩]

theorem bits?_ofBits (bytes : Bytes) : (ofBits bytes).bits? = some bytes := by
  rw [Element.bits?, ofBits, if_pos rfl, encodeBits, Der.bits?,
    if_pos ⟨by decide, fun _ => rfl⟩]

theorem length_lt_ofBits (bytes : Bytes) : bytes.length < (ofBits bytes).encode.length :=
  (Nat.lt_succ_self bytes.length).trans (ofBits bytes).content_lt_encode

end Element

theorem ObjectId.ofContent?_content (identifier : ObjectId) :
    ObjectId.ofContent? identifier.content = some identifier := by
  unfold ObjectId.ofContent?
  split
  · next arcs found =>
      obtain ⟨content, ownArcs, known⟩ := identifier
      rw [known] at found
      cases found
      rfl
  · next missing =>
      rw [identifier.arcs_eq] at missing
      contradiction

theorem ObjectId.eq_of_content {left right : ObjectId} (same : left.content = right.content) :
    left = right := by
  apply Option.some.inj
  rw [← ofContent?_content left, same, ofContent?_content]

theorem ObjectId.objectId?_element (identifier : ObjectId) :
    identifier.element.objectId? = some identifier := by
  rw [Element.objectId?, ObjectId.element, if_pos rfl, ObjectId.ofContent?_content]

theorem Element.objectId?_eq_some_iff
    {element : Element} {identifier : ObjectId} :
    element.objectId? = some identifier ↔ element = identifier.element := by
  constructor
  · intro read
    rw [objectId?] at read
    split at read
    · next tag =>
        apply Element.ext tag
        unfold ObjectId.ofContent? at read
        split at read
        · obtain rfl := Option.some.inj read
          rfl
        · contradiction
    · contradiction
  · rintro rfl
    exact identifier.objectId?_element

end Der

end KeyStore
