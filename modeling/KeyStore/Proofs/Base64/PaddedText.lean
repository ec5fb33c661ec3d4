import KeyStore.Proofs.Base64.Canonical
import KeyStore.Proofs.Base64.WebSafe
import KeyStore.Proofs.Protection
import Mathlib.Data.List.DropRight

/-!
# The texts that are read as one byte string

A text is read as a byte string exactly if it is the web-safe text of that byte string with any
number of `=` behind it. Apart from the padding, a byte string therefore has one text.
-/

namespace KeyStore.WebSafe

theorem toList_stripPadding (text : String) :
    (stripPadding text).toList = text.toList.rdropWhile (· = '=') := by
  rw [stripPadding, String.toList_ofList]
  rfl

/-- What remains without the padding is what stands in front of it. -/
theorem stripPadding_eq_iff
    {text plain : String} (noEquals : '=' ∉ plain.toList) :
    stripPadding text = plain ↔
      ∃ count, text.toList = plain.toList ++ List.replicate count '=' := by
  constructor
  · rintro rfl
    have run : text.toList.rtakeWhile (· = '=') =
        List.replicate (text.toList.rtakeWhile (· = '=')).length '=' := by
      apply List.eq_replicate_of_mem
      intro char member
      simpa using List.mem_rtakeWhile_imp member
    refine ⟨(text.toList.rtakeWhile (· = '=')).length, ?_⟩
    rw [toList_stripPadding, ← run, List.rdropWhile_append_rtakeWhile]
  · rintro ⟨count, form⟩
    apply String.toList_inj.mp
    rw [toList_stripPadding, form]
    induction count generalizing text with
    | zero =>
        rw [List.replicate_zero, List.append_nil, List.rdropWhile_eq_self_iff]
        intro nonempty isEquals
        have last := List.getLast_mem nonempty
        rw [of_decide_eq_true isEquals] at last
        exact noEquals last
    | succ count inductionHypothesis =>
        rw [List.replicate_succ', ← List.append_assoc, List.rdropWhile_concat_pos _ _ _ (by simp)]
        exact @inductionHypothesis (String.ofList (plain.toList ++ List.replicate count '='))
          String.toList_ofList

def IsSymbol (char : Char) : Prop :=
  char.isAlphanum ∨ char = '-' ∨ char = '_'

instance (char : Char) : Decidable (IsSymbol char) :=
  inferInstanceAs (Decidable (_ ∨ _))

theorem isSymbol_of_mem_encode
    {bytes : Bytes} {char : Char} (member : char ∈ (encode bytes).toList) :
    IsSymbol char := by
  have all : ∀ value, value < 64 →
      IsSymbol (Char.ofUInt8 (Base64.Alphabet.webSafe.symbol value)) := by
    decide
  rw [encode, String.toList_ofList] at member
  obtain ⟨byte, byteMember, rfl⟩ := List.mem_map.mp member
  obtain ⟨value, small, rfl⟩ := symbol_of_mem_encode byteMember
  exact all value small

theorem decode_eq_ok_iff
    {text : String} {bytes : Bytes} :
    decode text = .ok bytes ↔ stripPadding text = encode bytes := by
  rw [decode, Base64.decode_eq_ok_iff .absent Base64.Alphabet.webSafe_lawful, ← utf8_encode]
  constructor
  · intro same
    exact (Utf8.encode_injective same).symm
  · intro same
    rw [same]

theorem exists_decode_eq_ok_iff
    {text : String} :
    (∃ bytes, decode text = .ok bytes) ↔
      Base64.IsCanonical .webSafe (Utf8.encode (stripPadding text)) := by
  rw [Base64.isCanonical_iff_exists_encode_eq Base64.Alphabet.webSafe_lawful]
  simp only [decode, Base64.decode_eq_ok_iff .absent Base64.Alphabet.webSafe_lawful]

theorem encode_injective : Function.Injective encode := by
  intro left right same
  have both := decode_encode left
  rw [same, decode_encode] at both
  exact (Except.ok.inj both).symm

/-- A field is read exactly from the text of its bytes, with any padding behind it. Written texts
have symbols only, differ for different byte strings, and are the canonical ones: full groups and
perhaps a last one of two or three symbols, whose unused bits are zero. -/
theorem decodeField_inverts_encode :
    (∀ field text bytes,
      Envelope.decodeField field text = .ok bytes ↔ stripPadding text = encode bytes) ∧
    (∀ field bytes, Envelope.decodeField field (encode bytes) = .ok bytes) ∧
    (∀ bytes, '=' ∉ (encode bytes).toList ∧ ∀ char ∈ (encode bytes).toList, IsSymbol char) ∧
    Function.Injective encode ∧
    (∀ field text bytes, Envelope.decodeField field text = .ok bytes ↔
      ∃ count, text.toList = (encode bytes).toList ++ List.replicate count '=') ∧
    ∀ field text, (∃ bytes, Envelope.decodeField field text = .ok bytes) ↔
      Base64.IsCanonical .webSafe (Utf8.encode (stripPadding text)) := by
  refine ⟨?_, ?_, ?_, encode_injective, ?_, ?_⟩
  · intro field text bytes
    rw [Envelope.decodeField_eq_ok_iff, decode_eq_ok_iff]
  · intro field bytes
    rw [Envelope.decodeField_eq_ok_iff]
    exact decode_encode bytes
  · intro bytes
    exact ⟨equals_notMem_encode bytes, fun char member => isSymbol_of_mem_encode member⟩
  · intro field text bytes
    rw [Envelope.decodeField_eq_ok_iff, decode_eq_ok_iff]
    exact stripPadding_eq_iff (equals_notMem_encode bytes)
  · intro field text
    simp only [Envelope.decodeField_eq_ok_iff]
    exact exists_decode_eq_ok_iff

end KeyStore.WebSafe
