import KeyStore.Bytes

/-!
# UTF-8

The byte form of a text, and strict reading of it: a byte string is read only if it is the form of
some text, so overlong forms, surrogates and cut sequences are refused.
-/

namespace KeyStore.Utf8

def encode (text : String) : Bytes :=
  text.toList.flatMap String.utf8EncodeChar

theorem encode_append (first second : String) :
    encode (first ++ second) = encode first ++ encode second := by
  rw [encode, String.toList_append, List.flatMap_append]
  rfl

def decode? (bytes : Bytes) : Option String :=
  String.fromUTF8? bytes.toByteArray

theorem encode_eq_data_toList (text : String) :
    encode text = text.toByteArray.data.toList := by
  have form : (text.toList.utf8Encode).data.toList = encode text := by
    simp [List.utf8Encode, encode]
  rw [← form, String.utf8Encode_toList]

theorem toByteArray_encode (text : String) :
    (encode text).toByteArray = text.toByteArray := by
  rw [encode, ← List.utf8Encode, String.utf8Encode_toList]

/-- Reading is strict: exactly the UTF-8 form of a text is read as that text. -/
theorem decode?_eq_some_iff {bytes : Bytes} {text : String} :
    decode? bytes = some text ↔ encode text = bytes := by
  constructor
  · intro found
    simp only [decode?, String.fromUTF8?] at found
    split at found
    · injection found with equality
      subst equality
      simp [encode_eq_data_toList, String.fromUTF8]
    · contradiction
  · rintro rfl
    simp only [decode?, String.fromUTF8?, toByteArray_encode]
    split
    · rfl
    · next invalid => exact absurd text.isValidUTF8 invalid

theorem decode?_encode (text : String) : decode? (encode text) = some text :=
  decode?_eq_some_iff.2 rfl

theorem encode_injective {left right : String} (equality : encode left = encode right) :
    left = right := by
  have both := decode?_encode left
  rw [equality, decode?_encode] at both
  exact (Option.some.inj both).symm

/-- The bytes of a character that is not ASCII are not ASCII either. -/
theorem le_toNat_of_mem_encodeChar {char : Char} (large : 127 < char.val.toNat) :
    ∀ byte ∈ String.utf8EncodeChar char, 128 ≤ byte.toNat := by
  simp only [String.utf8EncodeChar, if_neg (Nat.not_le.mpr large)]
  repeat' split
  all_goals
    simp only [List.forall_mem_cons, UInt8.toNat_ofNat', List.not_mem_nil, false_implies,
      implies_true, and_true]
    omega

/-- The code of an ASCII character stands in the form of that character only. -/
theorem eq_of_mem_encodeChar {char other : Char} (ascii : other.val.toNat ≤ 127)
    (member : UInt8.ofNat other.val.toNat ∈ String.utf8EncodeChar char) : char = other := by
  by_cases small : char.val.toNat ≤ 127
  · simp only [String.utf8EncodeChar, if_pos small, List.mem_singleton] at member
    have code := congrArg UInt8.toNat member
    rw [UInt8.toNat_ofNat', UInt8.toNat_ofNat', Nat.mod_eq_of_lt (by omega),
      Nat.mod_eq_of_lt (by omega)] at code
    exact Char.ext (UInt32.toNat_inj.mp code.symm)
  · have high := le_toNat_of_mem_encodeChar (Nat.not_le.mp small) _ member
    rw [UInt8.toNat_ofNat', Nat.mod_eq_of_lt (by omega)] at high
    omega

/-- The form of a text has a line feed only where the text has one. -/
theorem lineFeed_notMem_encode {text : String} (absent : '\n' ∉ text.toList) :
    0x0a ∉ encode text := by
  intro member
  obtain ⟨char, isPart, member⟩ := List.mem_flatMap.mp member
  obtain rfl := @eq_of_mem_encodeChar char '\n' (by decide) member
  exact absent isPart

end KeyStore.Utf8
