import KeyStore.Proofs.Json.Rows
import KeyStore.Proofs.Reader.Incomplete

/-!
# The texts of envelopes

An envelope is read from an object, and also from an array whose elements stand for the first fields
in their order. Every other text is refused as malformed.
-/

namespace KeyStore

open Json

namespace Envelope

theorem length_le_of_givenInOrder {sparse : Bool} : (fields : Fields) →
    ∀ {elements : List (List Char)} {data : fields.Data},
      fields.GivenInOrder sparse elements data → elements.length ≤ fields.length
  | .nil, elements, data, noneLeft => by
      rw [show elements = [] from noneLeft]
      exact Nat.le_refl 0
  | .cons name shape fields, elements, data, ⟨_, others⟩ => by
      have shorter := length_le_of_givenInOrder fields others
      rw [List.length_drop] at shorter
      rw [Fields.length]
      omega

/-- The texts of an envelope are the objects whose members give its fields and the arrays of up to
six elements that give the first of its fields. Any other text is malformed JSON to the reader. -/
theorem parseEnvelope_accepts_objects_and_arrays (text : String) :
    (∀ envelope, parseEnvelope text = .ok envelope ↔
      (∃ members, ObjectText (listed members) text.toList ∧
        fields.GivenBy true members (Recorded.toDatum envelope)) ∨
      ∃ elements, ArrayText elements text.toList ∧ elements.length ≤ 6 ∧
        fields.GivenInOrder true elements (Recorded.toDatum envelope)) ∧
    ∀ fault, parseEnvelope text = .error fault →
      fault.kind = .parsing ∧ ∃ located, fault = .json located := by
  constructor
  · intro envelope
    rw [parseEnvelope_eq_ok_iff, ← @String.ofList_toList text]
    refine (parse_record_eq_ok_iff isFaithful_fields).trans ?_
    rw [String.toList_ofList]
    constructor
    · rintro (object | ⟨elements, array, given⟩)
      · exact .inl object
      · exact .inr ⟨elements, array, length_le_of_givenInOrder fields given, given⟩
    · rintro (object | ⟨elements, array, _, given⟩)
      · exact .inl object
      · exact .inr ⟨elements, array, given⟩
  · intro fault failed
    obtain ⟨located, rfl⟩ := exists_json_of_parseEnvelope failed
    exact ⟨rfl, located, rfl⟩

example : parseEnvelope "[]" = .ok ⟨"", "", 0, "", "", ""⟩ := by
  rfl

end Envelope

end KeyStore
