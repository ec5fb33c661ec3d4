import KeyStore.Proofs.Json.Objects
import KeyStore.Proofs.Record.CanonicalText

/-!
# Records whatever the layout of their text

An object is read as a record exactly if its members may stand for the fields of the record. The
record is then given by the members that have names of fields, and neither their order, nor blanks
and escapes, nor any other member makes a difference.
-/

namespace KeyStore

open Json

namespace Json.Shape

/-- A record whose fields are blank if they may be missing. -/
def IsRecord : Shape → Prop
  | .record _ sparse fields => sparse = true → fields.blank?.isSome
  | .text | .flag | .count _ _ | .choice _ | .sequence _ => False

def fieldNames : Shape → List String
  | .record _ _ fields => fields.names
  | .text | .flag | .count _ _ | .choice _ | .sequence _ => []

/-- The members of an object may stand for the fields of a record. -/
def AdmitsMembers (members : List (String × List Char)) : Shape → Prop
  | .record _ sparse fields => fields.Admit sparse members
  | .text | .flag | .count _ _ | .choice _ | .sequence _ => False

/-- The fields of a record have the values that the members of an object give them. -/
def IsGivenBy (members : List (String × List Char)) : (shape : Shape) → shape.Datum → Prop
  | .record _ sparse fields, values => fields.GivenBy sparse members values
  | .text, _ | .flag, _ | .count _ _, _ | .choice _, _ | .sequence _, _ => False

variable {shape : Shape} {members others : List (String × List Char)}

theorem parse_object_iff (isRecord : shape.IsRecord) (faithful : shape.IsFaithful)
    {text : List Char} (object : ObjectText (listed members) text) {data : shape.Datum} :
    shape.parse (String.ofList text) = .ok data ↔ shape.IsGivenBy members data := by
  cases shape with
  | record title sparse fields => exact object.parse_listed_iff faithful
  | _ => exact absurd isRecord id

theorem exists_isGivenBy_iff (isRecord : shape.IsRecord) :
    (∃ data, shape.IsGivenBy members data) ↔ shape.AdmitsMembers members := by
  cases shape with
  | record title sparse fields => exact fields.exists_givenBy_iff members isRecord
  | _ => exact absurd isRecord id

theorem isGivenBy_congr
    (same : ∀ name ∈ shape.fieldNames, valuesNamed name members = valuesNamed name others)
    {data : shape.Datum} :
    shape.IsGivenBy members data ↔ shape.IsGivenBy others data := by
  cases shape with
  | record title sparse fields => exact fields.givenBy_congr same
  | _ => exact Iff.rfl

theorem isDelimited_of_blanks_nil {text : List Char} (blanks : Blanks text []) :
    IsDelimited text := by
  obtain ⟨separators, allSeparators, rfl⟩ := blanks
  exact .of_blanks_append allSeparators IsDelimited.nil

/-- A number is written with its decimal digits, without a sign, a fraction or an exponent, and
without zeros in front. -/
theorem parse_count_iff {name : String} {bound : Nat} (small : bound ≤ UInt64.size)
    {text : List Char} {value : Fin bound} :
    (Shape.count name bound).parse (String.ofList text) = .ok value ↔
      ∃ stop, Blanks text (Nat.toDigits 10 value.val ++ stop) ∧ Blanks stop [] := by
  refine Shape.parse_eq_ok_iff.trans ?_
  constructor
  · rintro ⟨stop, read, blanks⟩
    rw [Shape.read] at read
    exact ⟨stop, blanks_toDigits_of_readCount read, blanks⟩
  · rintro ⟨stop, digits, blanks⟩
    refine ⟨stop, ?_, blanks⟩
    rw [(isValueReader_count name small).of_blanks digits, Shape.read]
    exact readCount_toDigits name small value (isDelimited_of_blanks_nil blanks)

end Json.Shape

namespace Recorded

/-- An object is read as a record of this type exactly if its members may stand for the fields, and
the record has what the members give its fields. Objects that agree in the members that have names
of fields are read as the same record. -/
structure FollowsMembers (α : Type) [Recorded α] : Prop where
  accepted : ∀ members text, ObjectText (listed members) (String.toList text) →
    ((∃ value, parse α text = .ok value) ↔ (shape α).AdmitsMembers members)
  given : ∀ members text value, ObjectText (listed members) (String.toList text) →
    (parse α text = .ok value ↔ (shape α).IsGivenBy members (toDatum value))
  alike : ∀ members text others otherText, ObjectText (listed members) (String.toList text) →
    ObjectText (listed others) (String.toList otherText) →
    (∀ name ∈ (shape α).fieldNames, valuesNamed name members = valuesNamed name others) →
    ∀ value, parse α text = .ok value ↔ parse α otherText = .ok value

section Faithful

variable {α : Type} [Recorded α]

theorem followsMembers_of_isRecord (isRecord : (shape α).IsRecord)
    (faithful : (shape α).IsFaithful) :
    FollowsMembers α := by
  have given : ∀ members text (value : α), ObjectText (listed members) (String.toList text) →
      (parse α text = .ok value ↔ (shape α).IsGivenBy members (toDatum value)) := by
    intro members text value object
    rw [parse_eq_ok_iff, ← Shape.parse_object_iff isRecord faithful object, String.ofList_toList]
  constructor
  · intro members text object
    rw [← Shape.exists_isGivenBy_iff isRecord]
    constructor
    · rintro ⟨value, parsed⟩
      exact ⟨_, (given members text value object).mp parsed⟩
    · rintro ⟨data, isGiven⟩
      rw [← toDatum_ofDatum data] at isGiven
      exact ⟨_, (given members text _ object).mpr isGiven⟩
  · exact given
  · intro members text others otherText object otherObject same value
    rw [given members text value object, given others otherText value otherObject,
      Shape.isGivenBy_congr same]

end Faithful

end Recorded

/-- Every record of a key store follows the members of the object it is read from, whatever the
layout of the text. What is missing from an envelope is empty or zero, and a number of 32 bits is
written with its digits only. -/
theorem records_follow_members :
    (Recorded.FollowsMembers Envelope ∧ Recorded.FollowsMembers KeyMetadata ∧
      Recorded.FollowsMembers KeyVersion ∧ Recorded.FollowsMembers RsaPublicRecord ∧
      Recorded.FollowsMembers RsaPrivateRecord ∧ Recorded.FollowsMembers AesRecord ∧
      Recorded.FollowsMembers HmacRecord) ∧
    (Shape.text.blank? = some "" ∧ Shape.word32.blank? = some (0 : Fin UInt32.size)) ∧
    ∀ (text : List Char) (number : Fin UInt32.size),
      Shape.word32.parse (String.ofList text) = .ok number ↔
        ∃ stop, Blanks text (Nat.toDigits 10 number.val ++ stop) ∧ Blanks stop [] := by
  refine ⟨⟨?_, ?_, ?_, ?_, ?_, ?_, ?_⟩, ⟨rfl, rfl⟩, fun text number => ?_⟩
  · exact Recorded.followsMembers_of_isRecord (fun _ => rfl) Envelope.isFaithful_shape
  · exact Recorded.followsMembers_of_isRecord nofun KeyMetadata.isFaithful_shape
  · exact Recorded.followsMembers_of_isRecord nofun KeyVersion.isFaithful_shape
  · exact Recorded.followsMembers_of_isRecord nofun RsaPublicRecord.isFaithful_shape
  · exact Recorded.followsMembers_of_isRecord nofun RsaPrivateRecord.isFaithful_shape
  · exact Recorded.followsMembers_of_isRecord nofun AesRecord.isFaithful_shape
  · exact Recorded.followsMembers_of_isRecord nofun HmacRecord.isFaithful_shape
  · exact Shape.parse_count_iff (by decide)

end KeyStore
