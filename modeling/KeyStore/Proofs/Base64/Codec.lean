import KeyStore.Base64.Basic
import Mathlib.Data.List.TakeWhile

/-!
# Reading what Base64 writes

The symbols of a byte string are read back as that byte string, with and without padding. The
induction follows the writer: three bytes make one full group, and the last group has one to four
symbols.
-/

namespace KeyStore.Base64

/-- Each value below 64 is read back from its symbol, and the padding byte is no symbol. -/
structure Alphabet.Lawful (alphabet : Alphabet) : Prop where
  value?_symbol : ∀ value, value < 64 → alphabet.value? (alphabet.symbol value) = some value
  value?_pad : alphabet.value? pad = none

theorem Alphabet.standard_lawful : Alphabet.standard.Lawful where
  value?_symbol := by decide
  value?_pad := by decide

theorem Alphabet.webSafe_lawful : Alphabet.webSafe.Lawful where
  value?_symbol := by decide
  value?_pad := by decide

namespace Alphabet.Lawful

variable {alphabet : Alphabet}

theorem symbol_ne_pad (lawful : alphabet.Lawful) {value : Nat} (small : value < 64) :
    alphabet.symbol value ≠ pad := by
  intro equality
  have known := lawful.value?_symbol value small
  rw [equality, lawful.value?_pad] at known
  contradiction

theorem readSymbols_map (lawful : alphabet.Lawful) {values : List Nat}
    (small : ∀ value ∈ values, value < 64) (offset : Nat) :
    readSymbols alphabet offset (values.map alphabet.symbol) = .ok values := by
  induction values generalizing offset with
  | nil =>
      rfl
  | cons value rest inductionHypothesis =>
      have known := lawful.value?_symbol value (small value List.mem_cons_self)
      have restSmall : ∀ other ∈ rest, other < 64 :=
        fun other member => small other (List.mem_cons_of_mem value member)
      rw [List.map_cons, readSymbols, inductionHypothesis restSmall (offset + 1), readSymbol, known]
      rfl

end Alphabet.Lawful

def groupValues : Bytes → List Nat
  | [a] => [a.toNat / 4, a.toNat % 4 * 16]
  | [a, b] => [a.toNat / 4, a.toNat % 4 * 16 + b.toNat / 16, b.toNat % 16 * 4]
  | [a, b, c] =>
      [a.toNat / 4, a.toNat % 4 * 16 + b.toNat / 16, b.toNat % 16 * 4 + c.toNat / 64,
        c.toNat % 64]
  | _ => []

theorem groupValues_lt (group : Bytes) : ∀ value ∈ groupValues group, value < 64 := by
  intro value member
  match group with
  | [] => simp [groupValues] at member
  | [a] =>
      have boundA := a.toNat_lt
      simp only [groupValues, List.mem_cons, List.not_mem_nil, or_false] at member
      omega
  | [a, b] =>
      have boundA := a.toNat_lt
      have boundB := b.toNat_lt
      simp only [groupValues, List.mem_cons, List.not_mem_nil, or_false] at member
      omega
  | [a, b, c] =>
      have boundA := a.toNat_lt
      have boundB := b.toNat_lt
      have boundC := c.toNat_lt
      simp only [groupValues, List.mem_cons, List.not_mem_nil, or_false] at member
      omega
  | _ :: _ :: _ :: _ :: _ => simp [groupValues] at member

/-- The bytes of a group come back from the values of its symbols, and nothing remains of the last
symbol. -/
theorem groupBytes_groupValues {group : Bytes} (nonempty : group ≠ [])
    (short : group.length ≤ 3) :
    groupBytes (groupValues group) = (group, 0) := by
  match group with
  | [] => contradiction
  | [a] =>
      have boundA := a.toNat_lt
      have first : a.toNat / 4 * 4 + a.toNat % 4 * 16 / 16 = a.toNat := by omega
      have unused : a.toNat % 4 * 16 % 16 = 0 := by omega
      simp only [groupValues, groupBytes, first, unused, UInt8.ofNat_toNat]
  | [a, b] =>
      have boundB := b.toNat_lt
      have first : a.toNat / 4 * 4 + (a.toNat % 4 * 16 + b.toNat / 16) / 16 = a.toNat := by omega
      have second : (a.toNat % 4 * 16 + b.toNat / 16) % 16 * 16 + b.toNat % 16 * 4 / 4 =
          b.toNat := by omega
      have unused : b.toNat % 16 * 4 % 4 = 0 := by omega
      simp only [groupValues, groupBytes, first, second, unused, UInt8.ofNat_toNat]
  | [a, b, c] =>
      have boundB := b.toNat_lt
      have boundC := c.toNat_lt
      have first : a.toNat / 4 * 4 + (a.toNat % 4 * 16 + b.toNat / 16) / 16 = a.toNat := by omega
      have second : (a.toNat % 4 * 16 + b.toNat / 16) % 16 * 16 +
          (b.toNat % 16 * 4 + c.toNat / 64) / 4 = b.toNat := by omega
      have third : (b.toNat % 16 * 4 + c.toNat / 64) % 4 * 64 + c.toNat % 64 = c.toNat := by omega
      simp only [groupValues, groupBytes, first, second, third, UInt8.ofNat_toNat]
  | _ :: _ :: _ :: _ :: _ =>
      simp only [List.length_cons] at short
      omega

def groupSymbols (alphabet : Alphabet) (group : Bytes) : Bytes :=
  (groupValues group).map alphabet.symbol

theorem length_groupSymbols (alphabet : Alphabet) {group : Bytes} (nonempty : group ≠ [])
    (short : group.length ≤ 3) :
    (groupSymbols alphabet group).length = group.length + 1 := by
  match group with
  | [] => contradiction
  | [_] => rfl
  | [_, _] => rfl
  | [_, _, _] => rfl
  | _ :: _ :: _ :: _ :: _ =>
      simp only [List.length_cons] at short
      omega

theorem ne_pad_of_mem_groupSymbols {alphabet : Alphabet} (lawful : alphabet.Lawful)
    (group : Bytes) :
    ∀ byte ∈ groupSymbols alphabet group, byte ≠ pad := by
  intro byte member
  obtain ⟨value, valueMember, rfl⟩ := List.mem_map.mp member
  exact lawful.symbol_ne_pad (groupValues_lt group value valueMember)

def groupFill (padding : Padding) (group : Bytes) : Bytes :=
  padding.fill (3 - group.length)

theorem mem_groupFill {padding : Padding} {group : Bytes} :
    ∀ byte ∈ groupFill padding group, byte = pad := by
  intro byte member
  cases padding with
  | required => exact List.eq_of_mem_replicate member
  | absent => simp [groupFill, Padding.fill] at member

theorem decodeLast_group {alphabet : Alphabet} (lawful : alphabet.Lawful) (padding : Padding)
    (offset : Nat) {group : Bytes} (nonempty : group ≠ []) (short : group.length ≤ 3) :
    decodeLast alphabet padding offset (groupSymbols alphabet group ++ groupFill padding group) =
      .ok group := by
  have symbolLength := length_groupSymbols alphabet nonempty short
  have positive : 0 < group.length := List.length_pos_iff.mpr nonempty
  have isSymbol : ∀ byte ∈ groupSymbols alphabet group, decide (byte ≠ pad) = true :=
    fun byte member => decide_eq_true (ne_pad_of_mem_groupSymbols lawful group byte member)
  have isPad : ∀ byte ∈ groupFill padding group, ¬decide (byte ≠ pad) = true :=
    fun byte member => by simp [mem_groupFill byte member]
  have symbols : (groupSymbols alphabet group ++ groupFill padding group).takeWhile (· ≠ pad) =
      groupSymbols alphabet group := by
    rw [List.takeWhile_append_of_pos isSymbol, List.takeWhile_eq_nil_iff.mpr, List.append_nil]
    intro bound
    exact isPad _ (List.getElem_mem bound)
  have pads : (groupSymbols alphabet group ++ groupFill padding group).dropWhile (· ≠ pad) =
      groupFill padding group := by
    rw [List.dropWhile_append_of_pos isSymbol, List.dropWhile_eq_self_iff.mpr]
    intro bound
    exact isPad _ (List.getElem_mem bound)
  have noStray : ¬(groupFill padding group).any (· ≠ pad) := by
    simp only [List.any_eq_true, not_exists, not_and]
    exact isPad
  have fits :
      padding.Fits (groupSymbols alphabet group).length (groupFill padding group).length := by
    cases padding with
    | required =>
        simp only [Padding.Fits, groupFill, Padding.fill, List.length_replicate, symbolLength]
        omega
    | absent => rfl
  have values := lawful.readSymbols_map (groupValues_lt group) offset
  simp only [decodeLast, symbols, pads]
  rw [groupSymbols, values, ← groupSymbols]
  simp only [groupBytes_groupValues nonempty short]
  rw [if_neg (by
      rintro ⟨_, few | stray⟩
      · omega
      · exact noStray stray),
    if_neg (by omega), if_neg (not_not_intro fits), if_neg (by simp)]

section Whole

variable {alphabet : Alphabet} (padding : Padding)

theorem encode_group {group : Bytes} (nonempty : group ≠ []) (short : group.length ≤ 3) :
    encode alphabet padding group = groupSymbols alphabet group ++ groupFill padding group := by
  match group with
  | [] => contradiction
  | [_] => rfl
  | [_, _] => rfl
  | [_, _, _] => cases padding <;> rfl
  | _ :: _ :: _ :: _ :: _ =>
      simp only [List.length_cons] at short
      omega

theorem encode_longer (a b c d : UInt8) (rest : Bytes) :
    encode alphabet padding (a :: b :: c :: d :: rest) =
      groupSymbols alphabet [a, b, c] ++ encode alphabet padding (d :: rest) :=
  rfl

theorem encode_ne_nil {bytes : Bytes} (nonempty : bytes ≠ []) :
    encode alphabet padding bytes ≠ [] := by
  match bytes with
  | [] => contradiction
  | [_] => exact List.cons_ne_nil _ _
  | [_, _] => exact List.cons_ne_nil _ _
  | _ :: _ :: _ :: _ => exact List.cons_ne_nil _ _

theorem decodeGroups_short (offset : Nat) {group : Bytes} (short : group.length ≤ 4) :
    decodeGroups alphabet padding offset group = decodeLast alphabet padding offset group := by
  match group with
  | [] => rfl
  | [_] => rfl
  | [_, _] => rfl
  | [_, _, _] => rfl
  | [_, _, _, _] => rfl
  | _ :: _ :: _ :: _ :: _ :: _ =>
      simp only [List.length_cons] at short
      omega

theorem decodeGroups_longer (lawful : alphabet.Lawful) (offset : Nat) (a b c : UInt8)
    {rest : Bytes} (nonempty : rest ≠ []) :
    decodeGroups alphabet padding offset (groupSymbols alphabet [a, b, c] ++ rest) =
      (decodeGroups alphabet padding (offset + 4) rest).map ([a, b, c] ++ ·) := by
  obtain ⟨next, others, rfl⟩ := List.exists_cons_of_ne_nil nonempty
  have values : readSymbols alphabet offset (groupSymbols alphabet [a, b, c]) =
      .ok (groupValues [a, b, c]) :=
    lawful.readSymbols_map (groupValues_lt [a, b, c]) offset
  have bytes := groupBytes_groupValues (List.cons_ne_nil a [b, c]) (Nat.le_refl 3)
  simp only [groupSymbols, groupValues, List.map_cons, List.map_nil] at values bytes ⊢
  simp only [List.cons_append, List.nil_append, decodeGroups, values, bind, Except.bind, bytes]
  cases decodeGroups alphabet padding (offset + 4) (next :: others) <;> rfl

theorem decodeGroups_group (lawful : alphabet.Lawful) (offset : Nat) {group : Bytes}
    (nonempty : group ≠ []) (short : group.length ≤ 3) :
    decodeGroups alphabet padding offset (encode alphabet padding group) = .ok group := by
  have symbolLength := length_groupSymbols alphabet nonempty short
  have fillLength : (groupFill padding group).length ≤ 3 - group.length := by
    cases padding <;> simp [groupFill, Padding.fill]
  rw [encode_group padding nonempty short, decodeGroups_short padding offset,
    decodeLast_group lawful padding offset nonempty short]
  rw [List.length_append]
  omega

theorem decodeGroups_encode (lawful : alphabet.Lawful) (offset : Nat) (bytes : Bytes) :
    decodeGroups alphabet padding offset (encode alphabet padding bytes) = .ok bytes := by
  match bytes with
  | [] => cases padding <;> rfl
  | [a] => exact decodeGroups_group padding lawful offset (List.cons_ne_nil _ _) (by simp)
  | [a, b] => exact decodeGroups_group padding lawful offset (List.cons_ne_nil _ _) (by simp)
  | [a, b, c] => exact decodeGroups_group padding lawful offset (List.cons_ne_nil _ _) (by simp)
  | a :: b :: c :: d :: rest =>
      have nonempty : encode alphabet padding (d :: rest) ≠ [] :=
        encode_ne_nil padding (List.cons_ne_nil d rest)
      rw [encode_longer, decodeGroups_longer padding lawful offset a b c nonempty,
        decodeGroups_encode lawful (offset + 4) (d :: rest)]
      rfl

theorem mem_group (group : Bytes) {byte : UInt8}
    (member : byte ∈ groupSymbols alphabet group ++ groupFill padding group) :
    (∃ value, value < 64 ∧ alphabet.symbol value = byte) ∨ padding = .required ∧ byte = pad := by
  rcases List.mem_append.mp member with symbol | fill
  · obtain ⟨value, valueMember, equality⟩ := List.mem_map.mp symbol
    exact Or.inl ⟨value, groupValues_lt group value valueMember, equality⟩
  · cases padding with
    | required => exact Or.inr ⟨rfl, mem_groupFill byte fill⟩
    | absent => simp [groupFill, Padding.fill] at fill

theorem mem_encode {bytes : Bytes} {byte : UInt8} (member : byte ∈ encode alphabet padding bytes) :
    (∃ value, value < 64 ∧ alphabet.symbol value = byte) ∨ padding = .required ∧ byte = pad := by
  match bytes with
  | [] => simp [encode] at member
  | [a] => exact mem_group padding [a] member
  | [a, b] => exact mem_group padding [a, b] member
  | [a, b, c] =>
      rw [encode_group padding (List.cons_ne_nil _ _) (by simp)] at member
      exact mem_group padding [a, b, c] member
  | a :: b :: c :: d :: rest =>
      rw [encode_longer] at member
      rcases List.mem_append.mp member with first | later
      · exact mem_group padding [a, b, c] (List.mem_append_left _ first)
      · exact mem_encode later

theorem checkLastByte_encode (lawful : alphabet.Lawful) (bytes : Bytes) :
    checkLastByte alphabet (encode alphabet padding bytes) = .ok () := by
  rw [checkLastByte]
  split
  · next byte last =>
      rw [if_neg]
      rintro ⟨_, notPad, unknown⟩
      rcases mem_encode padding (List.mem_of_getLast? last) with
        ⟨value, small, rfl⟩ | ⟨_, isPad⟩
      · rw [lawful.value?_symbol value small] at unknown
        contradiction
      · exact notPad isPad
  · rfl

theorem decode_encode (lawful : alphabet.Lawful) (bytes : Bytes) :
    decode alphabet padding (encode alphabet padding bytes) = .ok bytes := by
  rw [decode, checkLastByte_encode padding lawful bytes]
  exact decodeGroups_encode padding lawful 0 bytes

end Whole

end KeyStore.Base64
