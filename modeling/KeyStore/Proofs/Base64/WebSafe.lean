import KeyStore.Base64.WebSafe
import KeyStore.Proofs.Base64.Codec

/-!
# Web-safe texts of byte strings

The web-safe text of a byte string is plain ASCII without any `=`, so that dropping padding leaves
it alone and its bytes are the symbols that were written.
-/

namespace KeyStore

theorem Utf8.encodeChar_ofUInt8 (byte : UInt8) (ascii : byte < 128) :
    String.utf8EncodeChar (Char.ofUInt8 byte) = [byte] := by
  have all : ∀ index : Fin UInt8.size, UInt8.ofFin index < 128 →
      String.utf8EncodeChar (Char.ofUInt8 (UInt8.ofFin index)) = [UInt8.ofFin index] := by
    decide +kernel
  exact all byte.toFin ascii

/-- The UTF-8 form of ASCII characters is the row of their codes. -/
theorem Utf8.encode_ofUInt8 {bytes : Bytes} (ascii : ∀ byte ∈ bytes, byte < 128) :
    Utf8.encode (String.ofList (bytes.map Char.ofUInt8)) = bytes := by
  rw [Utf8.encode, String.toList_ofList]
  induction bytes with
  | nil =>
      rfl
  | cons byte rest inductionHypothesis =>
      have restAscii : ∀ other ∈ rest, other < 128 :=
        fun other member => ascii other (List.mem_cons_of_mem byte member)
      rw [List.map_cons, List.flatMap_cons, inductionHypothesis restAscii,
        Utf8.encodeChar_ofUInt8 byte (ascii byte List.mem_cons_self)]
      rfl

namespace WebSafe

theorem symbol_ascii {value : Nat} (small : value < 64) :
    Base64.Alphabet.webSafe.symbol value < 128 := by
  have all : ∀ value, value < 64 → Base64.Alphabet.webSafe.symbol value < 128 := by decide
  exact all value small

theorem symbol_ne_equals {value : Nat} (small : value < 64) :
    Char.ofUInt8 (Base64.Alphabet.webSafe.symbol value) ≠ '=' := by
  have all : ∀ value, value < 64 →
      Char.ofUInt8 (Base64.Alphabet.webSafe.symbol value) ≠ '=' := by decide
  exact all value small

theorem symbol_of_mem_encode {bytes : Bytes} {byte : UInt8}
    (member : byte ∈ Base64.encode .webSafe .absent bytes) :
    ∃ value, value < 64 ∧ Base64.Alphabet.webSafe.symbol value = byte := by
  rcases Base64.mem_encode .absent member with symbol | ⟨impossible, _⟩
  · exact symbol
  · contradiction

theorem equals_notMem_encode (bytes : Bytes) : '=' ∉ (encode bytes).toList := by
  intro member
  rw [encode, String.toList_ofList] at member
  obtain ⟨byte, byteMember, isEquals⟩ := List.mem_map.mp member
  obtain ⟨value, small, rfl⟩ := symbol_of_mem_encode byteMember
  exact symbol_ne_equals small isEquals

theorem stripPadding_of_notMem {text : String} (noEquals : '=' ∉ text.toList) :
    stripPadding text = text := by
  have kept : text.toList.reverse.dropWhile (· = '=') = text.toList.reverse := by
    rw [List.dropWhile_eq_self_iff]
    intro bound isEquals
    have member := List.mem_reverse.mp (List.getElem_mem bound)
    rw [of_decide_eq_true isEquals] at member
    exact noEquals member
  rw [stripPadding, kept, List.reverse_reverse, String.ofList_toList]

theorem utf8_encode (bytes : Bytes) :
    Utf8.encode (encode bytes) = Base64.encode .webSafe .absent bytes := by
  apply Utf8.encode_ofUInt8
  intro byte member
  obtain ⟨value, small, rfl⟩ := symbol_of_mem_encode member
  exact symbol_ascii small

theorem decode_encode (bytes : Bytes) : decode (encode bytes) = .ok bytes := by
  rw [decode, stripPadding_of_notMem (equals_notMem_encode bytes), utf8_encode]
  exact Base64.decode_encode .absent Base64.Alphabet.webSafe_lawful bytes

end WebSafe

end KeyStore
