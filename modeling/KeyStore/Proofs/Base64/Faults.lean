import KeyStore.Proofs.Base64.PaddedText

/-!
# Where base64 goes wrong

A refused byte string has a byte outside of the alphabet, or its last group is one symbol alone, or
its last symbol has an unused bit that is set. The fault names which of these it is, and the byte
and offset that it names are those of the text as the caller wrote it, since padding is only dropped
at the end.
-/

namespace KeyStore

namespace Base64

inductive Fault.Locates (alphabet : Alphabet) (encoded : Bytes) : Fault → Prop
  | symbol {byte : UInt8} {offset : Nat} (there : encoded[offset]? = some byte)
      (foreign : alphabet.value? byte = none) :
      Locates alphabet encoded (.invalidSymbol byte offset)
  | lastSymbol {byte : UInt8} {offset value : Nat} (last : offset + 1 = encoded.length)
      (there : encoded[offset]? = some byte)
      (known : ∀ other ∈ encoded, ∃ number, alphabet.value? other = some number)
      (isValue : alphabet.value? byte = some value)
      (unused : encoded.length % 4 = 2 ∧ value % 16 ≠ 0 ∨
        encoded.length % 4 = 3 ∧ value % 4 ≠ 0) :
      Locates alphabet encoded (.invalidLastSymbol byte offset)
  | length (known : ∀ other ∈ encoded, ∃ number, alphabet.value? other = some number)
      (alone : encoded.length % 4 = 1) :
      Locates alphabet encoded (.invalidLength encoded.length)

section Groups

variable {alphabet : Alphabet} {offset : Nat} {fault : Fault}

theorem exists_foreign_of_readSymbols
    {group : Bytes} (refused : readSymbols alphabet offset group = .error fault) :
    ∃ index byte, group[index]? = some byte ∧ alphabet.value? byte = none ∧
      fault = .invalidSymbol byte (offset + index) := by
  induction group generalizing offset with
  | nil =>
      contradiction
  | cons byte rest inductionHypothesis =>
      rw [readSymbols, readSymbol] at refused
      cases known : alphabet.value? byte with
      | none =>
          simp only [known, bind, Except.bind] at refused
          exact ⟨0, byte, rfl, known, (Except.error.inj refused).symm⟩
      | some value =>
          cases later : readSymbols alphabet (offset + 1) rest with
          | ok values =>
              simp [known, later, bind, Except.bind, pure, Except.pure] at refused
          | error laterFault =>
              simp only [known, later, bind, Except.bind] at refused
              obtain rfl := Except.error.inj refused
              obtain ⟨index, foreign, there, unknown, rfl⟩ := inductionHypothesis later
              refine ⟨index + 1, foreign, there, unknown, ?_⟩
              rw [Nat.add_right_comm, Nat.add_assoc]

/-- A byte that no value has is located behind the groups that have been read. -/
theorem locates_of_readSymbols
    {before group : Bytes} (refused : readSymbols alphabet before.length group = .error fault)
    (behind : Bytes) :
    fault.Locates alphabet (before ++ (group ++ behind)) := by
  obtain ⟨index, byte, there, foreign, rfl⟩ := exists_foreign_of_readSymbols refused
  obtain ⟨inside, _⟩ := List.getElem?_eq_some_iff.mp there
  apply Fault.Locates.symbol _ foreign
  rw [List.getElem?_append_right (Nat.le_add_right _ _), Nat.add_sub_cancel_left,
    List.getElem?_append_left inside, there]

theorem known_of_readSymbols
    (lawful : alphabet.Lawful) {group : Bytes} {values : List Nat}
    (read : readSymbols alphabet offset group = .ok values) :
    ∀ byte ∈ group, ∃ number, alphabet.value? byte = some number := by
  obtain ⟨rfl, small⟩ := map_symbol_of_readSymbols read
  intro byte member
  obtain ⟨value, isValue, rfl⟩ := List.mem_map.mp member
  exact ⟨value, lawful.value?_symbol value (small value isValue)⟩

theorem exists_unused_of_groupBytes
    (lawful : alphabet.Lawful) {group : Bytes} {values : List Nat}
    (read : readSymbols alphabet offset group = .ok values)
    (rest : (groupBytes values).2 ≠ 0) :
    ∃ value, alphabet.value? (group.getLastD pad) = some value ∧
      (group.length = 2 ∧ value % 16 ≠ 0 ∨ group.length = 3 ∧ value % 4 ≠ 0) := by
  obtain ⟨rfl, small⟩ := map_symbol_of_readSymbols read
  match values with
  | [v, w] =>
      exact ⟨w, lawful.value?_symbol w (small w (by simp)), .inl ⟨rfl, rest⟩⟩
  | [v, w, x] =>
      exact ⟨x, lawful.value?_symbol x (small x (by simp)), .inr ⟨rfl, rest⟩⟩
  | [] => exact absurd rfl rest
  | [_] => exact absurd rfl rest
  | [_, _, _, _] => exact absurd rfl rest
  | _ :: _ :: _ :: _ :: _ :: _ => exact absurd rfl rest

/-- Padding inside of a group stands for no value, like any other byte outside of the alphabet. -/
theorem exists_pad_of_getLast?
    {group : Bytes} (inside : group.dropWhile (· ≠ pad) ≠ [])
    (noPadding : group.getLast? ≠ some pad) :
    (group.dropWhile (· ≠ pad)).any (· ≠ pad) = true ∧
      group[(group.takeWhile (· ≠ pad)).length]? = some pad := by
  have split : group.takeWhile (· ≠ pad) ++ group.dropWhile (· ≠ pad) = group :=
    List.takeWhile_append_dropWhile
  have first := List.head_dropWhile_not (· ≠ pad) inside
  generalize group.takeWhile (· ≠ pad) = symbols at split ⊢
  generalize group.dropWhile (· ≠ pad) = pads at split inside first ⊢
  constructor
  · rw [List.any_eq_true]
    refine ⟨pads.getLast inside, List.getLast_mem inside, ?_⟩
    apply decide_eq_true
    intro isPad
    apply noPadding
    rw [← split, List.getLast?_append_of_ne_nil symbols inside,
      List.getLast?_eq_some_getLast inside, isPad]
  · obtain ⟨byte, rest, rfl⟩ := List.exists_cons_of_ne_nil inside
    have isPad : byte = pad := of_not_not (of_decide_eq_false first)
    rw [← split, isPad]
    simp

/-- The fault of a last group, with groups of symbols in front of it. -/
theorem locates_of_decodeLast
    (lawful : alphabet.Lawful) {before group : Bytes}
    (known : ∀ byte ∈ before, ∃ number, alphabet.value? byte = some number)
    (full : before.length % 4 = 0) (few : group.length ≤ 4)
    (noPadding : group.getLast? ≠ some pad)
    (refused : decodeLast alphabet .absent before.length group = .error fault) :
    fault.Locates alphabet (before ++ group) := by
  unfold decodeLast at refused
  by_cases inside : group.dropWhile (· ≠ pad) = []
  · have symbols : group.takeWhile (· ≠ pad) = group := by
      have split := List.takeWhile_append_dropWhile (p := (· ≠ pad)) (l := group)
      rwa [inside, List.append_nil] at split
    simp only [symbols, inside] at refused
    cases read : readSymbols alphabet before.length group with
    | error symbolFault =>
        simp only [read] at refused
        obtain rfl := Except.error.inj refused
        have located := locates_of_readSymbols read []
        rwa [List.append_nil] at located
    | ok values =>
        simp only [read, ne_eq, not_true_eq_false, false_and, if_false] at refused
        have allKnown : ∀ byte ∈ before ++ group,
            ∃ number, alphabet.value? byte = some number := by
          intro byte member
          rcases List.mem_append.mp member with inBefore | inGroup
          · exact known byte inBefore
          · exact known_of_readSymbols lawful read byte inGroup
        have total : (before ++ group).length = before.length + group.length :=
          List.length_append
        split at refused
        · next alone =>
            obtain rfl := Except.error.inj refused
            have positive := List.length_pos_iff.mpr alone.1
            rw [← total]
            exact .length allKnown (by omega)
        · split at refused
          · next notFilled =>
              exact absurd rfl notFilled
          · split at refused
            · next rest =>
                obtain rfl := Except.error.inj refused
                obtain ⟨value, isValue, unused⟩ := exists_unused_of_groupBytes lawful read rest
                have positive : 0 < group.length := by omega
                have nonempty := List.length_pos_iff.mp positive
                apply Fault.Locates.lastSymbol _ _ allKnown isValue
                · omega
                · omega
                · rw [List.getElem?_append_right (by omega), List.getLastD_eq_getLast?,
                    List.getLast?_eq_some_getLast nonempty, Option.getD_some,
                    List.getLast_eq_getElem, ← List.getElem?_eq_getElem]
                  congr 1
                  omega
            · contradiction
  · obtain ⟨stray, there⟩ := exists_pad_of_getLast? inside noPadding
    cases read : readSymbols alphabet before.length (group.takeWhile (· ≠ pad)) with
    | error symbolFault =>
        simp only [read] at refused
        obtain rfl := Except.error.inj refused
        have located := locates_of_readSymbols read (group.dropWhile (· ≠ pad))
        rwa [List.takeWhile_append_dropWhile] at located
    | ok values =>
        simp only [read] at refused
        rw [if_pos ⟨inside, .inr stray⟩] at refused
        obtain rfl := Except.error.inj refused
        apply Fault.Locates.symbol _ lawful.value?_pad
        rw [List.getElem?_append_right (Nat.le_add_right _ _), Nat.add_sub_cancel_left, there]

theorem locates_of_decodeGroups
    (lawful : alphabet.Lawful) {before rest : Bytes}
    (known : ∀ byte ∈ before, ∃ number, alphabet.value? byte = some number)
    (full : before.length % 4 = 0) (noPadding : rest.getLast? ≠ some pad)
    (refused : decodeGroups alphabet .absent before.length rest = .error fault) :
    fault.Locates alphabet (before ++ rest) := by
  -- The groups that have been read stand in front, so that offsets count from the start.
  generalize start : before.length = offset at refused
  induction offset, rest using decodeGroups.induct generalizing before with
  | case1 offset a b c d e rest inductionHypothesis =>
      obtain rfl := start
      rw [decodeGroups] at refused
      cases read : readSymbols alphabet before.length [a, b, c, d] with
      | error symbolFault =>
          simp only [read, bind, Except.bind] at refused
          obtain rfl := Except.error.inj refused
          exact locates_of_readSymbols read (e :: rest)
      | ok values =>
          cases later : decodeGroups alphabet .absent (before.length + 4) (e :: rest) with
          | ok bytes =>
              simp [read, later, bind, Except.bind, pure, Except.pure] at refused
          | error laterFault =>
              simp only [read, later, bind, Except.bind] at refused
              obtain rfl := Except.error.inj refused
              have moved : before ++ a :: b :: c :: d :: e :: rest =
                  (before ++ [a, b, c, d]) ++ e :: rest := by
                simp
              rw [moved]
              apply inductionHypothesis
              · intro byte member
                rcases List.mem_append.mp member with inBefore | inGroup
                · exact known byte inBefore
                · exact known_of_readSymbols lawful read byte inGroup
              · simp only [List.length_append, List.length_cons, List.length_nil]
                omega
              · simpa using noPadding
              · simp
              · exact later
  | case2 offset group notLonger =>
      obtain rfl := start
      have few := length_le_four_of_not_longer notLonger
      rw [decodeGroups_short .absent before.length few] at refused
      exact locates_of_decodeLast lawful known full few noPadding refused

/-- Without padding at its end, a byte string is refused for what the fault says about it. -/
theorem locates_of_decode
    (lawful : alphabet.Lawful) {encoded : Bytes} (noPadding : encoded.getLast? ≠ some pad)
    (refused : decode alphabet .absent encoded = .error fault) :
    fault.Locates alphabet encoded := by
  rw [decode] at refused
  cases checked : checkLastByte alphabet encoded with
  | error lastFault =>
      simp only [checked, bind, Except.bind] at refused
      obtain rfl := Except.error.inj refused
      unfold checkLastByte at checked
      split at checked
      · next byte last =>
          split at checked
          · next foreign =>
              obtain rfl := Except.error.inj checked
              apply Fault.Locates.symbol _ foreign.2.2
              rw [← List.getLast?_eq_getElem?, last]
          · contradiction
      · contradiction
  | ok checkedByte =>
      simp only [checked, bind, Except.bind] at refused
      have known : ∀ byte ∈ ([] : Bytes), ∃ number, alphabet.value? byte = some number :=
        fun _ member => absurd member List.not_mem_nil
      exact locates_of_decodeGroups lawful known rfl noPadding refused

end Groups

end Base64

/-! ## Faults of texts -/

namespace WebSafe

def symbols : Bytes :=
  Utf8.encode "ABCDEFGHIJKLMNOPQRSTUVWXYZabcdefghijklmnopqrstuvwxyz0123456789-_"

theorem symbols_eq :
    symbols = (List.range 64).map Base64.Alphabet.webSafe.symbol := by
  decide +kernel

theorem value?_eq_some_iff {byte : UInt8} {value : Nat} :
    Base64.Alphabet.webSafe.value? byte = some value ↔ symbols[value]? = some byte := by
  rw [symbols_eq, List.getElem?_map, Option.map_eq_some_iff]
  constructor
  · intro known
    obtain ⟨small, written⟩ := Base64.Alphabet.symbol_of_value? known
    exact ⟨value, List.getElem?_range small, written⟩
  · rintro ⟨number, there, rfl⟩
    obtain ⟨small, rfl⟩ := List.getElem?_eq_some_iff.mp there
    rw [List.length_range] at small
    rw [List.getElem_range]
    exact Base64.Alphabet.webSafe_lawful.value?_symbol value small

theorem exists_value?_iff {byte : UInt8} :
    (∃ number, Base64.Alphabet.webSafe.value? byte = some number) ↔ byte ∈ symbols := by
  simp only [value?_eq_some_iff, List.mem_iff_getElem?]

theorem value?_eq_none_iff {byte : UInt8} :
    Base64.Alphabet.webSafe.value? byte = none ↔ byte ∉ symbols := by
  rw [← exists_value?_iff, ← Option.isSome_iff_exists, Option.not_isSome_iff_eq_none]

/-- What is wrong with a text, as a fault and its wording say. Offsets and bytes are those of the
whole text, its padding included. -/
inductive Explains (text : String) : Base64.Fault → (wording : String) → Prop
  | symbol {byte : UInt8} {offset : Nat}
      (inside : offset < (Utf8.encode (stripPadding text)).length)
      (there : (Utf8.encode text)[offset]? = some byte) (foreign : byte ∉ symbols) :
      Explains text (.invalidSymbol byte offset)
        s!"Invalid symbol {byte.toNat}, offset {offset}."
  | lastSymbol {byte : UInt8} {offset value : Nat}
      (last : offset + 1 = (Utf8.encode (stripPadding text)).length)
      (there : (Utf8.encode text)[offset]? = some byte)
      (known : ∀ other ∈ Utf8.encode (stripPadding text), other ∈ symbols)
      (isValue : symbols[value]? = some byte)
      (unused : (Utf8.encode (stripPadding text)).length % 4 = 2 ∧ value % 16 ≠ 0 ∨
        (Utf8.encode (stripPadding text)).length % 4 = 3 ∧ value % 4 ≠ 0) :
      Explains text (.invalidLastSymbol byte offset)
        s!"Invalid last symbol {byte.toNat}, offset {offset}."
  | length (known : ∀ other ∈ Utf8.encode (stripPadding text), other ∈ symbols)
      (alone : (Utf8.encode (stripPadding text)).length % 4 = 1) :
      Explains text (.invalidLength (Utf8.encode (stripPadding text)).length)
        s!"Invalid input length: {(Utf8.encode (stripPadding text)).length}"

section Texts

variable {text : String}

theorem exists_utf8_eq_append (text : String) :
    ∃ padding, Utf8.encode text = Utf8.encode (stripPadding text) ++ padding := by
  have split : stripPadding text ++ String.ofList (text.toList.rtakeWhile (· = '=')) = text := by
    apply String.toList_inj.mp
    rw [String.toList_append, toList_stripPadding, String.toList_ofList,
      List.rdropWhile_append_rtakeWhile]
  refine ⟨Utf8.encode (String.ofList (text.toList.rtakeWhile (· = '='))), ?_⟩
  rw [← Utf8.encode_append, split]

theorem getLast?_utf8_stripPadding (text : String) :
    (Utf8.encode (stripPadding text)).getLast? ≠ some Base64.pad := by
  rw [Utf8.encode, toList_stripPadding]
  intro isPad
  rcases List.eq_nil_or_concat' (text.toList.rdropWhile (· = '=')) with empty | ⟨front, char, form⟩
  · rw [empty] at isPad
    contradiction
  · have last := @List.rdropWhile_last_not _ (· = '=') text.toList (by simp [form])
    simp only [form, List.getLast_append_singleton, decide_eq_true_eq] at last
    have nonempty : String.utf8EncodeChar char ≠ [] := by
      simp
    rw [form, List.flatMap_append, List.flatMap_singleton,
      List.getLast?_append_of_ne_nil _ nonempty] at isPad
    exact last (Utf8.eq_of_mem_encodeChar (by decide) (List.mem_of_getLast? isPad))

theorem explains_of_locates
    {fault : Base64.Fault}
    (located : fault.Locates .webSafe (Utf8.encode (stripPadding text))) :
    Explains text fault fault.message := by
  obtain ⟨padding, form⟩ := exists_utf8_eq_append text
  have whole : ∀ {offset : Nat} {byte : UInt8},
      (Utf8.encode (stripPadding text))[offset]? = some byte →
        offset < (Utf8.encode (stripPadding text)).length ∧
          (Utf8.encode text)[offset]? = some byte := by
    intro offset byte there
    obtain ⟨inside, _⟩ := List.getElem?_eq_some_iff.mp there
    rw [form, List.getElem?_append_left inside]
    exact ⟨inside, there⟩
  cases located with
  | symbol there foreign =>
      obtain ⟨inside, inText⟩ := whole there
      exact .symbol inside inText (value?_eq_none_iff.mp foreign)
  | lastSymbol last there known isValue unused =>
      exact .lastSymbol last (whole there).2
        (fun other member => exists_value?_iff.mp (known other member))
        (value?_eq_some_iff.mp isValue) unused
  | length known alone =>
      exact .length (fun other member => exists_value?_iff.mp (known other member)) alone

end Texts

/-- A field that is refused is refused for what is wrong with it. The fault names the field and
points at a byte outside of the alphabet, or else at unused bits of the last symbol, or else at a
symbol that is alone in its group; it never speaks of padding. It points at a byte outside of the
alphabet exactly if there is one. -/
theorem base64_faults_point_at_their_cause
    {field text : String} {fault : StoreFault}
    (refused : Envelope.decodeField field text = .error fault) :
    ∃ cause wording, fault = .base64 field cause ∧ Explains text cause wording ∧
      fault.kind = .decoding ∧ fault.causes = [wording] ∧
      fault.message = "malformed base64 in '" ++ field ++ "': " ++ wording ∧
      cause ≠ .invalidPadding ∧
      ((∃ byte ∈ Utf8.encode (stripPadding text), byte ∉ symbols) ↔
        ∃ byte offset, cause = .invalidSymbol byte offset) := by
  rw [Envelope.decodeField] at refused
  cases read : decode text with
  | ok bytes =>
      rw [read] at refused
      contradiction
  | error cause =>
      rw [read] at refused
      obtain rfl := Except.error.inj refused
      have located : cause.Locates .webSafe (Utf8.encode (stripPadding text)) :=
        Base64.locates_of_decode Base64.Alphabet.webSafe_lawful
          (getLast?_utf8_stripPadding text) read
      refine ⟨cause, cause.message, rfl, explains_of_locates located, rfl, rfl, rfl, ?_, ?_⟩
      · rintro rfl
        cases located
      · constructor
        · rintro ⟨byte, member, foreign⟩
          cases located with
          | symbol there unknown => exact ⟨_, _, rfl⟩
          | lastSymbol last there known isValue unused =>
              exact absurd (exists_value?_iff.mp (known byte member)) foreign
          | length known alone =>
              exact absurd (exists_value?_iff.mp (known byte member)) foreign
        · rintro ⟨byte, offset, rfl⟩
          cases located with
          | symbol there unknown =>
              exact ⟨byte, List.mem_of_getElem? there, value?_eq_none_iff.mp unknown⟩

theorem base64_faults_of_three_texts :
    (Envelope.decodeField "salt" "AAAA=AA+=" = .error (.base64 "salt" (.invalidSymbol 0x3d 4)) ∧
      Explains "AAAA=AA+=" (.invalidSymbol 0x3d 4) "Invalid symbol 61, offset 4.") ∧
    (Envelope.decodeField "iv" "AB==" = .error (.base64 "iv" (.invalidLastSymbol 0x42 1)) ∧
      Explains "AB==" (.invalidLastSymbol 0x42 1) "Invalid last symbol 66, offset 1.") ∧
    (Envelope.decodeField "key" "AAAAA=" = .error (.base64 "key" (.invalidLength 5)) ∧
      Explains "AAAAA=" (.invalidLength 5) "Invalid input length: 5") := by
  have inside : Envelope.decodeField "salt" "AAAA=AA+=" =
      .error (.base64 "salt" (.invalidSymbol 0x3d 4)) := by
    decide +kernel
  have last : Envelope.decodeField "iv" "AB==" =
      .error (.base64 "iv" (.invalidLastSymbol 0x42 1)) := by
    decide +kernel
  have alone : Envelope.decodeField "key" "AAAAA=" = .error (.base64 "key" (.invalidLength 5)) := by
    decide +kernel
  refine ⟨⟨inside, ?_⟩, ⟨last, ?_⟩, ⟨alone, ?_⟩⟩
  · obtain ⟨_, _, same, explains, _, wordings, _⟩ := base64_faults_point_at_their_cause inside
    obtain ⟨_, rfl⟩ := StoreFault.base64.inj same
    rwa [← List.head_eq_of_cons_eq wordings] at explains
  · obtain ⟨_, _, same, explains, _, wordings, _⟩ := base64_faults_point_at_their_cause last
    obtain ⟨_, rfl⟩ := StoreFault.base64.inj same
    rwa [← List.head_eq_of_cons_eq wordings] at explains
  · obtain ⟨_, _, same, explains, _, wordings, _⟩ := base64_faults_point_at_their_cause alone
    obtain ⟨_, rfl⟩ := StoreFault.base64.inj same
    rwa [← List.head_eq_of_cons_eq wordings] at explains

end WebSafe

end KeyStore
