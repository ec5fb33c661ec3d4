import KeyStore.Proofs.Base64.Codec
import Mathlib.Data.List.Basic

/-!
# The only form of a byte string

Reading is strict: a byte string is read from the symbols that are written for it and from no
others. Which symbols those are can be said without the writer: they lie in the alphabet, none of
them stands alone in its group, and no unused bit of the last one is set.
-/

namespace KeyStore.Base64

section Symbols

variable {alphabet : Alphabet}

theorem Alphabet.symbol_of_value?
    {byte : UInt8} {value : Nat}
    (known : alphabet.value? byte = some value) :
    value < 64 ∧ alphabet.symbol value = byte := by
  have written : ∀ number, number = byte.toNat → UInt8.ofNat number = byte := by
    rintro _ rfl
    exact UInt8.ofNat_toNat
  unfold value? at known
  simp only [UInt8.le_iff_toNat_le, UInt8.reduceToNat] at known
  split at known
  · next capital =>
      obtain rfl := Option.some.inj known
      have below : byte.toNat - 65 < 26 := by omega
      rw [symbol, if_pos below]
      exact ⟨by omega, written _ (by omega)⟩
  · split at known
    · next small =>
        obtain rfl := Option.some.inj known
        have notCapital : ¬byte.toNat - 97 + 26 < 26 := by omega
        have below : byte.toNat - 97 + 26 < 52 := by omega
        rw [symbol, if_neg notCapital, if_pos below]
        exact ⟨by omega, written _ (by omega)⟩
    · split at known
      · next digit =>
          obtain rfl := Option.some.inj known
          have notCapital : ¬byte.toNat - 48 + 52 < 26 := by omega
          have notSmall : ¬byte.toNat - 48 + 52 < 52 := by omega
          have below : byte.toNat - 48 + 52 < 62 := by omega
          rw [symbol, if_neg notCapital, if_neg notSmall, if_pos below]
          exact ⟨by omega, written _ (by omega)⟩
      · split at known
        · next same =>
            obtain rfl := Option.some.inj known
            exact ⟨by decide, same.symm⟩
        · split at known
          · next same =>
              obtain rfl := Option.some.inj known
              exact ⟨by decide, same.symm⟩
          · contradiction

theorem map_symbol_of_readSymbols
    {offset : Nat} {bytes : Bytes} {values : List Nat}
    (read : readSymbols alphabet offset bytes = .ok values) :
    values.map alphabet.symbol = bytes ∧ ∀ value ∈ values, value < 64 := by
  induction bytes generalizing offset values with
  | nil =>
      obtain rfl := Except.ok.inj read
      simp
  | cons byte rest inductionHypothesis =>
      rw [readSymbols, readSymbol] at read
      cases known : alphabet.value? byte with
      | none =>
          simp [known, bind, Except.bind] at read
      | some value =>
          cases restRead : readSymbols alphabet (offset + 1) rest with
          | error fault =>
              simp [known, restRead, bind, Except.bind] at read
          | ok others =>
              simp only [known, restRead, bind, Except.bind, pure, Except.pure] at read
              obtain rfl := Except.ok.inj read
              obtain ⟨below, symbol⟩ := Alphabet.symbol_of_value? known
              obtain ⟨symbols, restBelow⟩ := inductionHypothesis restRead
              constructor
              · rw [List.map_cons, symbol, symbols]
              · exact List.forall_mem_cons.mpr ⟨below, restBelow⟩

end Symbols

/-- Two to four values without a rest are those of a group of bytes. -/
theorem groupValues_groupBytes
    {values : List Nat}
    (small : ∀ value ∈ values, value < 64)
    (several : 2 ≤ values.length) (few : values.length ≤ 4)
    (noRest : (groupBytes values).2 = 0) :
    groupValues (groupBytes values).1 = values ∧
      (groupBytes values).1.length + 1 = values.length := by
  have byte : ∀ number, number < 256 → (UInt8.ofNat number).toNat = number :=
    fun number below => UInt8.toNat_ofNat_of_lt' below
  match values with
  | [] => simp at several
  | [_] => simp at several
  | [v, w] =>
      obtain ⟨smallV, smallW⟩ : v < 64 ∧ w < 64 := by
        simpa using small
      simp only [groupBytes] at noRest ⊢
      refine ⟨?_, rfl⟩
      simp only [groupValues, byte (v * 4 + w / 16) (by omega), List.cons.injEq, and_true]
      omega
  | [v, w, x] =>
      obtain ⟨smallV, smallW, smallX⟩ : v < 64 ∧ w < 64 ∧ x < 64 := by
        simpa using small
      simp only [groupBytes] at noRest ⊢
      refine ⟨?_, rfl⟩
      simp only [groupValues, byte (v * 4 + w / 16) (by omega),
        byte (w % 16 * 16 + x / 4) (by omega), List.cons.injEq, and_true]
      omega
  | [v, w, x, y] =>
      obtain ⟨smallV, smallW, smallX, smallY⟩ :
          v < 64 ∧ w < 64 ∧ x < 64 ∧ y < 64 := by
        simpa using small
      simp only [groupBytes] at noRest ⊢
      refine ⟨?_, rfl⟩
      simp only [groupValues, byte (v * 4 + w / 16) (by omega),
        byte (w % 16 * 16 + x / 4) (by omega), byte (x % 4 * 64 + y) (by omega),
        List.cons.injEq, and_true]
      omega
  | _ :: _ :: _ :: _ :: _ :: _ =>
      simp only [List.length_cons] at few
      omega

/-- Two to four symbols without a set bit that is unused are those of a group of bytes. -/
theorem groupSymbols_groupBytes
    (alphabet : Alphabet) {values : List Nat}
    (small : ∀ value ∈ values, value < 64)
    (several : 2 ≤ values.length) (few : values.length ≤ 4)
    (noRest : (groupBytes values).2 = 0) :
    groupSymbols alphabet (groupBytes values).1 = values.map alphabet.symbol ∧
      (groupBytes values).1 ≠ [] ∧
      (groupBytes values).1.length + 1 = values.length := by
  obtain ⟨written, length⟩ := groupValues_groupBytes small several few noRest
  refine ⟨?_, ?_, length⟩
  · rw [groupSymbols, written]
  · apply List.ne_nil_of_length_pos
    omega

/-! ## Reading undone by writing -/

section Whole

variable {alphabet : Alphabet} {padding : Padding}

/-- Bytes behind the symbols of a last group that fit the padding rule are its padding. -/
theorem fill_of_fits
    {symbols pads : Bytes}
    (several : 2 ≤ symbols.length) (few : symbols.length + pads.length ≤ 4)
    (allPads : ∀ byte ∈ pads, byte = pad)
    (fits : padding.Fits symbols.length pads.length) :
    padding.fill (4 - symbols.length) = pads := by
  cases padding with
  | required =>
      have full : (symbols.length + pads.length) % 4 = 0 := fits
      have count : 4 - symbols.length = pads.length := by omega
      rw [Padding.fill, count]
      exact (List.eq_replicate_of_mem allPads).symm
  | absent =>
      have none : pads.length = 0 := fits
      rw [Padding.fill, List.eq_nil_of_length_eq_zero none]

theorem encode_of_decodeLast
    {offset : Nat} {group bytes : Bytes}
    (few : group.length ≤ 4)
    (read : decodeLast alphabet padding offset group = .ok bytes) :
    encode alphabet padding bytes = group := by
  have split : group.takeWhile (· ≠ pad) ++ group.dropWhile (· ≠ pad) = group :=
    List.takeWhile_append_dropWhile
  unfold decodeLast at read
  generalize group.takeWhile (· ≠ pad) = symbols at split read
  generalize group.dropWhile (· ≠ pad) = pads at split read
  cases symbolsRead : readSymbols alphabet offset symbols with
  | error fault =>
      simp [symbolsRead] at read
  | ok values =>
      obtain ⟨written, small⟩ := map_symbol_of_readSymbols symbolsRead
      have count : values.length = symbols.length := by
        rw [← written, List.length_map]
      simp only [symbolsRead] at read
      -- The four refusals of the reader are passed one after the other.
      split at read
      · contradiction
      split at read
      · contradiction
      split at read
      · contradiction
      split at read
      · contradiction
      next noStray notAlone fits noRest =>
        obtain rfl := Except.ok.inj read
        by_cases empty : group = []
        · obtain ⟨rfl, rfl⟩ := List.append_eq_nil_iff.mp (split.trans empty)
          obtain rfl := List.eq_nil_of_length_eq_zero count
          exact empty.symm
        · have several : 2 ≤ symbols.length := by
            apply Nat.not_lt.mp
            intro alone
            exact notAlone ⟨empty, alone⟩
          have allPads : ∀ byte ∈ pads, byte = pad := by
            intro byte member
            by_contra different
            apply noStray
            refine ⟨List.ne_nil_of_mem member, Or.inr ?_⟩
            simpa using ⟨byte, member, different⟩
          have total : symbols.length + pads.length ≤ 4 := by
            rw [← List.length_append, split]
            exact few
          obtain ⟨groupWritten, nonempty, length⟩ :=
            groupSymbols_groupBytes alphabet small
              (by omega) (by omega) (not_not.mp noRest)
          have filled := fill_of_fits several total allPads (not_not.mp fits)
          have missing : 3 - (groupBytes values).1.length = 4 - symbols.length := by omega
          rw [encode_group padding nonempty (by omega), groupWritten, written, groupFill,
            missing, filled, split]

theorem encode_append
    {group later : Bytes}
    (full : group.length = 3) (nonempty : later ≠ []) :
    encode alphabet padding (group ++ later) =
      groupSymbols alphabet group ++ encode alphabet padding later := by
  obtain ⟨a, b, c, rfl⟩ := List.length_eq_three.mp full
  obtain ⟨d, rest, rfl⟩ := List.exists_cons_of_ne_nil nonempty
  exact encode_longer padding a b c d rest

theorem length_le_four_of_not_longer
    {group : Bytes}
    (notLonger : ∀ a b c d e rest, group = a :: b :: c :: d :: e :: rest → False) :
    group.length ≤ 4 := by
  apply Nat.not_lt.mp
  intro longer
  match group with
  | a :: b :: c :: d :: e :: rest => exact notLonger a b c d e rest rfl
  | [] | [_] | [_, _] | [_, _, _] | [_, _, _, _] => simp at longer

theorem groupBytes_snd_of_full
    {values : List Nat} (full : values.length = 4) :
    (groupBytes values).2 = 0 := by
  match values with
  | [_, _, _, _] => rfl

theorem encode_of_decodeGroups
    {offset : Nat} {encoded bytes : Bytes}
    (read : decodeGroups alphabet padding offset encoded = .ok bytes) :
    encode alphabet padding bytes = encoded := by
  induction offset, encoded using decodeGroups.induct generalizing bytes with
  | case1 offset a b c d e rest inductionHypothesis =>
      rw [decodeGroups] at read
      cases symbolsRead : readSymbols alphabet offset [a, b, c, d] with
      | error fault =>
          simp [symbolsRead, bind, Except.bind] at read
      | ok values =>
          cases laterRead : decodeGroups alphabet padding (offset + 4) (e :: rest) with
          | error fault =>
              simp [symbolsRead, laterRead, bind, Except.bind] at read
          | ok later =>
              simp only [symbolsRead, laterRead, bind, Except.bind, pure, Except.pure] at read
              obtain rfl := Except.ok.inj read
              obtain ⟨written, small⟩ := map_symbol_of_readSymbols symbolsRead
              have count : values.length = 4 := by
                rw [← List.length_map alphabet.symbol, written]
                rfl
              obtain ⟨groupWritten, _, length⟩ :=
                groupSymbols_groupBytes alphabet small
                  (by omega) (by omega) (groupBytes_snd_of_full count)
              have laterWritten := inductionHypothesis laterRead
              have nonempty : later ≠ [] := by
                rintro rfl
                cases laterWritten
              rw [encode_append (by omega) nonempty, groupWritten, written, laterWritten]
              rfl
  | case2 offset group notLonger =>
      have few : group.length ≤ 4 := length_le_four_of_not_longer notLonger
      rw [decodeGroups_short padding offset few] at read
      exact encode_of_decodeLast few read

variable (padding)

/-- A byte string is read from its written form, and from no other byte string. -/
theorem decode_eq_ok_iff
    (lawful : alphabet.Lawful) {encoded bytes : Bytes} :
    decode alphabet padding encoded = .ok bytes ↔
      encode alphabet padding bytes = encoded := by
  constructor
  · intro read
    rw [decode] at read
    cases checked : checkLastByte alphabet encoded with
    | error fault =>
        simp [checked, bind, Except.bind] at read
    | ok _ =>
        simp only [checked, bind, Except.bind] at read
        exact encode_of_decodeGroups read
  · rintro rfl
    exact decode_encode padding lawful bytes

end Whole

/-! ## Canonical symbols -/

/-- Symbols of full groups with perhaps a last group of two or three, of which the last symbol has
no unused bit that is set. -/
structure IsCanonical (alphabet : Alphabet) (symbols : Bytes) : Prop where
  known : ∀ byte ∈ symbols, ∃ value, alphabet.value? byte = some value
  notAlone : symbols.length % 4 ≠ 1
  noRest : ∀ byte ∈ symbols.getLast?, ∀ value, alphabet.value? byte = some value →
    (symbols.length % 4 = 2 → value % 16 = 0) ∧ (symbols.length % 4 = 3 → value % 4 = 0)

section Canonical

variable {alphabet : Alphabet}

theorem isCanonical_append
    {group rest : Bytes}
    (known : ∀ byte ∈ group, ∃ value, alphabet.value? byte = some value)
    (full : group.length = 4) (nonempty : rest ≠ []) :
    IsCanonical alphabet (group ++ rest) ↔ IsCanonical alphabet rest := by
  have last : (group ++ rest).getLast? = rest.getLast? := by
    rw [List.getLast?_append_of_ne_nil group nonempty]
  have length : (group ++ rest).length % 4 = rest.length % 4 := by
    rw [List.length_append, full]
    omega
  constructor
  · rintro ⟨allKnown, notAlone, noRest⟩
    rw [last, length] at noRest
    rw [length] at notAlone
    exact ⟨fun byte member => allKnown byte (List.mem_append_right group member),
      notAlone, noRest⟩
  · rintro ⟨restKnown, notAlone, noRest⟩
    rw [← last, ← length] at noRest
    rw [← length] at notAlone
    refine ⟨fun byte member => ?_, notAlone, noRest⟩
    rcases List.mem_append.mp member with inGroup | inRest
    · exact known byte inGroup
    · exact restKnown byte inRest

theorem exists_value?_of_mem_groupSymbols
    (lawful : alphabet.Lawful) (group : Bytes) :
    ∀ byte ∈ groupSymbols alphabet group, ∃ value, alphabet.value? byte = some value := by
  intro byte member
  obtain ⟨value, isValue, rfl⟩ := List.mem_map.mp member
  exact ⟨value, lawful.value?_symbol value (groupValues_lt group value isValue)⟩

theorem isCanonical_groupSymbols
    (lawful : alphabet.Lawful) {group : Bytes}
    (nonempty : group ≠ []) (short : group.length ≤ 3) :
    IsCanonical alphabet (groupSymbols alphabet group) := by
  have length := length_groupSymbols alphabet nonempty short
  have positive : 0 < group.length := List.length_pos_iff.mpr nonempty
  refine ⟨exists_value?_of_mem_groupSymbols lawful group, by omega, ?_⟩
  intro byte isLast value valueOf
  have values := groupValues_lt group
  match group with
  | [a] =>
      obtain rfl : alphabet.symbol (a.toNat % 4 * 16) = byte := by
        simpa [groupSymbols, groupValues] using isLast
      rw [lawful.value?_symbol _ (values _ (by simp [groupValues]))] at valueOf
      obtain rfl := Option.some.inj valueOf
      omega
  | [a, b] =>
      obtain rfl : alphabet.symbol (b.toNat % 16 * 4) = byte := by
        simpa [groupSymbols, groupValues] using isLast
      rw [lawful.value?_symbol _ (values _ (by simp [groupValues]))] at valueOf
      obtain rfl := Option.some.inj valueOf
      have three : (groupSymbols alphabet [a, b]).length = 3 := rfl
      omega
  | [a, b, c] =>
      have four : (groupSymbols alphabet [a, b, c]).length = 4 := rfl
      omega

theorem exists_readSymbols_eq
    {symbols : Bytes}
    (known : ∀ byte ∈ symbols, ∃ value, alphabet.value? byte = some value) (offset : Nat) :
    ∃ values, readSymbols alphabet offset symbols = .ok values := by
  induction symbols generalizing offset with
  | nil =>
      exact ⟨[], rfl⟩
  | cons byte rest inductionHypothesis =>
      obtain ⟨⟨value, valueOf⟩, restKnown⟩ := List.forall_mem_cons.mp known
      obtain ⟨values, restRead⟩ := inductionHypothesis restKnown (offset + 1)
      refine ⟨value :: values, ?_⟩
      simp [readSymbols, readSymbol, valueOf, restRead, bind, Except.bind, pure, Except.pure]

theorem exists_groupSymbols_eq
    (lawful : alphabet.Lawful) {symbols : Bytes}
    (canonical : IsCanonical alphabet symbols)
    (nonempty : symbols ≠ []) (few : symbols.length ≤ 4) :
    ∃ group, group ≠ [] ∧ group.length + 1 = symbols.length ∧
      groupSymbols alphabet group = symbols := by
  obtain ⟨values, read⟩ := exists_readSymbols_eq canonical.known 0
  obtain ⟨rfl, small⟩ := map_symbol_of_readSymbols read
  have notAlone := canonical.notAlone
  have noRest := canonical.noRest
  rw [List.length_map] at notAlone noRest few
  have positive : 0 < values.length := by
    apply List.length_pos_iff.mpr
    rintro rfl
    exact nonempty rfl
  have last : ∀ value ∈ values.getLast?,
      (values.length = 2 → value % 16 = 0) ∧ (values.length = 3 → value % 4 = 0) := by
    intro value isLast
    have member : value ∈ values := List.mem_of_getLast? isLast
    have ends : alphabet.symbol value ∈ (values.map alphabet.symbol).getLast? := by
      rw [List.getLast?_map, Option.mem_def.mp isLast]
      rfl
    have := noRest _ ends value (lawful.value?_symbol value (small value member))
    omega
  have rest : (groupBytes values).2 = 0 := by
    match values with
    | [] => rfl
    | [_] => rfl
    | [v, w] => exact (last w rfl).1 rfl
    | [v, w, x] => exact (last x rfl).2 rfl
    | [_, _, _, _] => rfl
    | _ :: _ :: _ :: _ :: _ :: _ => rfl
  obtain ⟨written, groupNonempty, length⟩ :=
    groupSymbols_groupBytes alphabet small (by omega) few rest
  exact ⟨(groupBytes values).1, groupNonempty, by rw [List.length_map, length], written⟩

theorem isCanonical_encode_of_short
    (lawful : alphabet.Lawful) {group : Bytes}
    (nonempty : group ≠ []) (short : group.length ≤ 3) :
    IsCanonical alphabet (encode alphabet .absent group) := by
  have symbols := isCanonical_groupSymbols lawful nonempty short
  rw [encode_group .absent nonempty short]
  simpa [groupFill, Padding.fill] using symbols

theorem isCanonical_encode
    (lawful : alphabet.Lawful) (bytes : Bytes) :
    IsCanonical alphabet (encode alphabet .absent bytes) := by
  match bytes with
  | [] => exact ⟨by simp [encode], by simp [encode], by simp [encode]⟩
  | [a] => exact isCanonical_encode_of_short lawful (List.cons_ne_nil _ _) (by simp)
  | [a, b] => exact isCanonical_encode_of_short lawful (List.cons_ne_nil _ _) (by simp)
  | [a, b, c] => exact isCanonical_encode_of_short lawful (List.cons_ne_nil _ _) (by simp)
  | a :: b :: c :: d :: rest =>
      have later := isCanonical_encode lawful (d :: rest)
      have nonempty : encode alphabet .absent (d :: rest) ≠ [] :=
        encode_ne_nil .absent (List.cons_ne_nil d rest)
      have known := exists_value?_of_mem_groupSymbols lawful [a, b, c]
      rw [encode_longer]
      exact (isCanonical_append known rfl nonempty).mpr later

theorem exists_encode_eq_of_isCanonical
    (lawful : alphabet.Lawful) {symbols : Bytes}
    (canonical : IsCanonical alphabet symbols) :
    ∃ bytes, encode alphabet .absent bytes = symbols := by
  -- The groups are taken off in the order in which they are read.
  induction (0 : Nat), symbols using decodeGroups.induct with
  | case1 offset a b c d e rest inductionHypothesis =>
      have firstKnown : ∀ byte ∈ [a, b, c, d], ∃ value, alphabet.value? byte = some value :=
        fun byte member => canonical.known byte (List.mem_append_left (e :: rest) member)
      have first : IsCanonical alphabet [a, b, c, d] := ⟨firstKnown, by simp, by simp⟩
      have nonempty : e :: rest ≠ [] := List.cons_ne_nil e rest
      obtain ⟨later, laterWritten⟩ :=
        inductionHypothesis ((isCanonical_append firstKnown rfl nonempty).mp canonical)
      obtain ⟨group, _, length, written⟩ :=
        exists_groupSymbols_eq lawful first (List.cons_ne_nil _ _) (by simp)
      have full : group.length = 3 := by
        simpa using length
      have laterNonempty : later ≠ [] := by
        rintro rfl
        cases laterWritten
      refine ⟨group ++ later, ?_⟩
      rw [encode_append full laterNonempty, written, laterWritten]
      rfl
  | case2 offset symbols notLonger =>
      have few := length_le_four_of_not_longer notLonger
      by_cases empty : symbols = []
      · exact ⟨[], empty.symm⟩
      · obtain ⟨group, nonempty, length, written⟩ :=
          exists_groupSymbols_eq lawful canonical empty few
        refine ⟨group, ?_⟩
        rw [encode_group .absent nonempty (by omega), written]
        exact List.append_nil symbols

/-- The symbols of byte strings are the canonical ones. -/
theorem isCanonical_iff_exists_encode_eq
    (lawful : alphabet.Lawful) {symbols : Bytes} :
    IsCanonical alphabet symbols ↔ ∃ bytes, encode alphabet .absent bytes = symbols := by
  constructor
  · exact exists_encode_eq_of_isCanonical lawful
  · rintro ⟨bytes, rfl⟩
    exact isCanonical_encode lawful bytes

end Canonical

end KeyStore.Base64
