import KeyStore.Import.Importer
import KeyStore.Proofs.Reader.Incomplete
import KeyStore.Proofs.Record.Layout

/-!
# Records are told apart by their fields

The text of a record is read as another type only if it has all fields of that type. Each type of
key record, the metadata and the envelope have a field that none of the other texts has, so nothing
is mistaken for anything else; and as no record has a field of an envelope, an envelope read from
a record is blank, which is refused for its cipher.
-/

namespace KeyStore

open Json

namespace Json

theorem Fields.names_filled : (fields : Fields) → (values : fields.Data) →
    (fields.presentMembers (fields.filled values)).map Prod.fst = fields.names
  | .nil, _ => rfl
  | .cons name shape rest, values => by
      show name :: (rest.presentMembers (rest.filled values.2)).map Prod.fst = _
      rw [rest.names_filled values.2]
      rfl

/-- The text of a record is an object with a member for each field, in their order. -/
theorem Shape.exists_objectText_write {shape : Shape} (isRecord : shape.IsRecord)
    (value : shape.Datum) :
    ∃ members, members.map Prod.fst = shape.fieldNames ∧
      ObjectText (listed members) (shape.write value) := by
  cases shape with
  | record title sparse fields =>
      refine ⟨fields.presentMembers (fields.filled value), fields.names_filled value, ?_⟩
      have written : (Shape.record title sparse fields).write value =
          writeObject (fields.presentMembers (fields.filled value)) := by
        rw [Shape.write, writeObject, fields.writeMembers_eq value]
        rfl
      rw [written]
      exact objectText_writeObject (fields.value_presentMembers _)
  | _ => exact absurd isRecord id

/-- None of the fields of a record may be missing. -/
def Shape.IsStrict : Shape → Prop
  | .record _ sparse _ => sparse = false
  | .text | .flag | .count _ _ | .choice _ | .sequence _ => False

theorem Shape.IsStrict.isRecord {shape : Shape} (strict : shape.IsStrict) : shape.IsRecord := by
  cases shape with
  | record title sparse fields =>
      intro isSparse
      rw [show sparse = false from strict] at isSparse
      contradiction
  | _ => exact strict

theorem Fields.names_subset_of_admit {members : List (String × List Char)} :
    (fields : Fields) → fields.Admit false members → fields.names ⊆ members.map Prod.fst
  | .nil, _ => List.nil_subset _
  | .cons name shape rest, admitted => by
      apply List.cons_subset.mpr
      constructor
      · exact admitted.1.present rfl
      · exact rest.names_subset_of_admit admitted.2

theorem Shape.fieldNames_subset_of_admits {shape : Shape} (strict : shape.IsStrict)
    {members : List (String × List Char)} (admitted : shape.AdmitsMembers members) :
    shape.fieldNames ⊆ members.map Prod.fst := by
  cases shape with
  | record title sparse fields =>
      obtain rfl : sparse = false := strict
      exact fields.names_subset_of_admit admitted
  | _ => exact absurd strict id

theorem Fields.givenBy_blank {members : List (String × List Char)} : (fields : Fields) →
    (∀ name ∈ fields.names, name ∉ members.map Prod.fst) →
    ∀ {data : fields.Data}, fields.blank? = some data → fields.GivenBy true members data
  | .nil, _, _, _ => True.intro
  | .cons name shape rest, others, data, blank => by
      rw [Fields.blank?] at blank
      obtain ⟨value, shapeBlank, blank⟩ := Option.bind_eq_some_iff.mp blank
      obtain ⟨values, restBlank, blank⟩ := Option.bind_eq_some_iff.mp blank
      obtain rfl := Option.some.inj blank
      constructor
      · rw [valuesNamed_eq_nil_iff.mpr (others name List.mem_cons_self)]
        exact ⟨rfl, shapeBlank⟩
      · apply rest.givenBy_blank _ restBlank
        intro other isField
        exact others other (List.mem_cons_of_mem name isField)

end Json

namespace Recorded

variable {α β : Type} [Recorded α] [Recorded β]

theorem exists_objectText_serialize (isRecord : (shape α).IsRecord) (value : α) :
    ∃ members, members.map Prod.fst = (shape α).fieldNames ∧
      ObjectText (listed members) (serialize value).toList := by
  rw [serialize, String.toList_ofList]
  exact Shape.exists_objectText_write isRecord (toDatum value)

/-- A text of one type that is read as another has the fields of that type. -/
theorem fieldNames_subset_of_parse (isRecord : (shape α).IsRecord) (strict : (shape β).IsStrict)
    (faithful : (shape β).IsFaithful) {value : α} {other : β}
    (parsed : parse β (serialize value) = .ok other) :
    (shape β).fieldNames ⊆ (shape α).fieldNames := by
  obtain ⟨members, names, object⟩ := exists_objectText_serialize isRecord value
  have follows := followsMembers_of_isRecord strict.isRecord faithful
  rw [← names]
  exact Shape.fieldNames_subset_of_admits strict
    ((follows.accepted members _ object).mp ⟨other, parsed⟩)

end Recorded

theorem Envelope.isRecord_shape : (Recorded.shape Envelope).IsRecord := by
  rw [shape_eq]
  exact fun _ => rfl

def Envelope.blank : Envelope :=
  ⟨"", "", 0, "", "", ""⟩

/-- A record without any field of an envelope is read as the blank envelope. -/
theorem parseEnvelope_serialize {α : Type} [Recorded α] (value : α)
    (isRecord : (Recorded.shape α).IsRecord)
    (others : ∀ name ∈ Envelope.fields.names, name ∉ (Recorded.shape α).fieldNames) :
    parseEnvelope (Recorded.serialize value) = .ok Envelope.blank := by
  obtain ⟨members, names, object⟩ := Recorded.exists_objectText_serialize isRecord value
  rw [Envelope.parseEnvelope_eq_ok_iff, ← @String.ofList_toList (Recorded.serialize value)]
  refine (object.parse_listed_iff Envelope.isFaithful_fields).mpr ?_
  rw [← names] at others
  exact Envelope.fields.givenBy_blank others rfl

/-! ## The types of records -/

/-- The types of records that stand by themselves, apart from the envelope. -/
inductive RecordType where
  | rsaPrivate
  | rsaPublic
  | aes
  | hmac
  | metadata
deriving DecidableEq, Repr

namespace RecordType

def Accepts (text : String) : RecordType → Prop
  | .rsaPrivate => ∃ record, Recorded.parse RsaPrivateRecord text = .ok record
  | .rsaPublic => ∃ record, Recorded.parse RsaPublicRecord text = .ok record
  | .aes => ∃ record, Recorded.parse AesRecord text = .ok record
  | .hmac => ∃ record, Recorded.parse HmacRecord text = .ok record
  | .metadata => ∃ record, Recorded.parse KeyMetadata text = .ok record

def shape : RecordType → Shape
  | .rsaPrivate => Recorded.shape RsaPrivateRecord
  | .rsaPublic => Recorded.shape RsaPublicRecord
  | .aes => Recorded.shape AesRecord
  | .hmac => Recorded.shape HmacRecord
  | .metadata => Recorded.shape KeyMetadata

variable {α : Type} [Recorded α]

theorem fieldNames_subset_of_accepts (isRecord : (Recorded.shape α).IsRecord) {value : α}
    {type : RecordType} (accepted : type.Accepts (Recorded.serialize value)) :
    type.shape.fieldNames ⊆ (Recorded.shape α).fieldNames := by
  cases type with
  | rsaPrivate =>
      obtain ⟨_, parsed⟩ := accepted
      exact Recorded.fieldNames_subset_of_parse isRecord rfl RsaPrivateRecord.isFaithful_shape
        parsed
  | rsaPublic =>
      obtain ⟨_, parsed⟩ := accepted
      exact Recorded.fieldNames_subset_of_parse isRecord rfl RsaPublicRecord.isFaithful_shape parsed
  | aes =>
      obtain ⟨_, parsed⟩ := accepted
      exact Recorded.fieldNames_subset_of_parse isRecord rfl AesRecord.isFaithful_shape parsed
  | hmac =>
      obtain ⟨_, parsed⟩ := accepted
      exact Recorded.fieldNames_subset_of_parse isRecord rfl HmacRecord.isFaithful_shape parsed
  | metadata =>
      obtain ⟨_, parsed⟩ := accepted
      exact Recorded.fieldNames_subset_of_parse isRecord rfl KeyMetadata.isFaithful_shape parsed

/-- A field that a record does not have keeps its text from being read as another type. -/
theorem not_accepts_of_field (value : α) (isRecord : (Recorded.shape α).IsRecord)
    {type : RecordType} {name : String} (field : name ∈ type.shape.fieldNames)
    (missing : name ∉ (Recorded.shape α).fieldNames) :
    ¬type.Accepts (Recorded.serialize value) :=
  fun accepted => missing (fieldNames_subset_of_accepts isRecord accepted field)

/-- A field that the records of no other type have. -/
def mark : RecordType → String
  | .rsaPrivate => "crtCoefficient"
  | .rsaPublic => "modulus"
  | .aes => "aesKeyString"
  | .hmac => "hmacKeyString"
  | .metadata => "name"

theorem mark_mem_fieldNames (type : RecordType) : type.mark ∈ type.shape.fieldNames := by
  cases type <;> decide

theorem mark_notMem_fieldNames {type other : RecordType} (different : type ≠ other) :
    type.mark ∉ other.shape.fieldNames := by
  revert different
  cases type <;> cases other <;> decide

theorem mark_notMem_envelope (type : RecordType) : type.mark ∉ Envelope.fields.names := by
  cases type <;> decide

/-- The text of a record is read as a type only if that is the type of the record. -/
theorem eq_of_accepts {own type : RecordType} {value : α}
    (accepted : type.Accepts (Recorded.serialize value)) (same : Recorded.shape α = own.shape)
    (isRecord : (Recorded.shape α).IsRecord) :
    own = type := by
  by_contra different
  refine not_accepts_of_field value isRecord type.mark_mem_fieldNames ?_ accepted
  rw [same]
  exact mark_notMem_fieldNames (Ne.symm different)

end RecordType

def KeyType.recordType? : KeyType → Option RecordType
  | .aes => some .aes
  | .hmacSha1 => some .hmac
  | .rsaPrivate => some .rsaPrivate
  | .rsaPublic => some .rsaPublic
  | .dsaPrivate | .dsaPublic => none

namespace KeyRecord

def type : KeyRecord → RecordType
  | .rsaPrivate _ => .rsaPrivate
  | .rsaPublic _ => .rsaPublic
  | .aes _ => .aes

theorem accepts_serialize_iff (record : KeyRecord) (type : RecordType) :
    type.Accepts record.serialize ↔ record.type = type := by
  constructor
  · intro accepted
    cases record with
    | rsaPrivate record => exact RecordType.eq_of_accepts accepted rfl nofun
    | rsaPublic record => exact RecordType.eq_of_accepts accepted rfl nofun
    | aes record => exact RecordType.eq_of_accepts accepted rfl nofun
  · rintro rfl
    cases record with
    | rsaPrivate record =>
        exact ⟨record, Recorded.parse_serialize RsaPrivateRecord.isFaithful_shape record⟩
    | rsaPublic record =>
        exact ⟨record, Recorded.parse_serialize RsaPublicRecord.isFaithful_shape record⟩
    | aes record => exact ⟨record, Recorded.parse_serialize AesRecord.isFaithful_shape record⟩

theorem parseEnvelope_eq_blank (record : KeyRecord) :
    parseEnvelope record.serialize = .ok Envelope.blank := by
  cases record with
  | rsaPrivate record => exact parseEnvelope_serialize record nofun (by decide)
  | rsaPublic record => exact parseEnvelope_serialize record nofun (by decide)
  | aes record => exact parseEnvelope_serialize record nofun (by decide)

end KeyRecord

/-- A key from elsewhere, with the purpose that it is imported for. -/
inductive ImportedKey where
  | rsaPrivate (key : Rsa.PrivateKey) (purpose : KeyPurpose)
  | rsaPublic (key : Rsa.PublicKey) (purpose : KeyPurpose)
  | aes (key : AesKey)

namespace ImportedKey

def store : ImportedKey → Reader
  | .rsaPrivate key purpose => .ofPrivateKey key purpose
  | .rsaPublic key purpose => .ofPublicKey key purpose
  | .aes key => .ofAesKey key

theorem exists_store_eq (key : ImportedKey) :
    ∃ metadata record, key.store = .imported metadata record ∧
      metadata.keyType.recordType? = some record.type := by
  cases key with
  | rsaPrivate key purpose => exact ⟨_, _, rfl, rfl⟩
  | rsaPublic key purpose => exact ⟨_, _, rfl, rfl⟩
  | aes key => exact ⟨_, _, rfl, rfl⟩

/-- The store of an imported key says in its metadata which type of record its key is, and the key
is read as that type and as no other. Read as an envelope, the key is refused for its empty cipher.
The text of an envelope is read as none of these types. -/
theorem records_are_told_apart :
    (∀ (key : ImportedKey) (files : FileAccess) (version : UInt32),
      ∃ (metadataText text : String) (metadata : KeyMetadata),
        (key.store.metadata files).outcome = .ok metadataText ∧
        Recorded.parse KeyMetadata metadataText = .ok metadata ∧
        (key.store.key files version).outcome = .ok text ∧
        (∀ type : RecordType, type.Accepts text ↔ metadata.keyType.recordType? = some type) ∧
        ∀ password,
          ((Reader.passwordProtected key.store password).key files version).outcome =
            .error (.unsupported .cipher "")) ∧
    ∀ (envelope : Envelope) (type : RecordType),
      ¬type.Accepts (Recorded.serialize envelope) := by
  constructor
  · intro key files version
    obtain ⟨metadata, record, store, announced⟩ := key.exists_store_eq
    have read : (key.store.key files version).outcome = .ok record.serialize := by
      rw [store]
      rfl
    refine ⟨Recorded.serialize metadata, record.serialize, metadata, ?_, ?_, read, ?_, ?_⟩
    · rw [store]
      rfl
    · exact Recorded.parse_serialize KeyMetadata.isFaithful_shape metadata
    · intro type
      rw [record.accepts_serialize_iff, announced, Option.some.injEq]
    · intro password
      have unsupported : Reader.HoldsUnsupported (key.store.key files version).outcome
          Envelope.blank :=
        ⟨record.serialize, read, record.parseEnvelope_eq_blank, .inl (by decide)⟩
      rw [Reader.key_of_unsupported unsupported]
      rfl
  · intro envelope type
    exact RecordType.not_accepts_of_field envelope Envelope.isRecord_shape
      type.mark_mem_fieldNames type.mark_notMem_envelope

end ImportedKey

end KeyStore
