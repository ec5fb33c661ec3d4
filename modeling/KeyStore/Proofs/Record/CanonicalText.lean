import KeyStore.Record.Metadata
import KeyStore.Proofs.Import.KeyRecords
import KeyStore.Proofs.Reader.Protected

/-!
# The canonical text of a record

A record that is written and read again is the same record. Reading a text and writing what it
stands for gives the canonical text of that record, which is its own canonical text.
-/

namespace KeyStore

open Json

namespace Recorded

def normalize (α : Type) [Recorded α] (text : String) : Except LocatedFault String :=
  (parse α text).map serialize

/-- Values survive writing and reading, and each of them has one canonical text. -/
structure SurvivesText (α : Type) [Recorded α] : Prop where
  written : ∀ value : α, parse α (serialize value) = .ok value
  sameValue : ∀ text canonical,
    normalize α text = .ok canonical → parse α canonical = parse α text
  stable : ∀ text canonical,
    normalize α text = .ok canonical → normalize α canonical = .ok canonical
  unique : ∀ left right : α, serialize left = serialize right → left = right

section Faithful

variable {α : Type} [Recorded α]

theorem normalize_eq_ok_iff
    {text canonical : String} :
    normalize α text = .ok canonical ↔
      ∃ value, parse α text = .ok value ∧ serialize value = canonical := by
  rw [normalize]
  cases parse α text with
  | error fault => simp [Except.map]
  | ok value => simp [Except.map]

theorem survivesText_of_isFaithful
    (faithful : (shape α).IsFaithful) :
    SurvivesText α := by
  have written : ∀ value : α, parse α (serialize value) = .ok value :=
    fun value => parse_serialize faithful value
  constructor
  · exact written
  · intro text canonical normalized
    obtain ⟨value, read, rfl⟩ := normalize_eq_ok_iff.mp normalized
    rw [written, read]
  · intro text canonical normalized
    obtain ⟨value, _, rfl⟩ := normalize_eq_ok_iff.mp normalized
    exact normalize_eq_ok_iff.mpr ⟨value, written value, rfl⟩
  · intro left right same
    have both := written left
    rw [same, written right] at both
    exact (Except.ok.inj both).symm

end Faithful

end Recorded

theorem KeyVersion.isFaithful_shape : (Recorded.shape KeyVersion).IsFaithful := by
  decide

theorem KeyMetadata.isFaithful_shape : (Recorded.shape KeyMetadata).IsFaithful := by
  decide

theorem HmacRecord.isFaithful_shape : (Recorded.shape HmacRecord).IsFaithful := by
  decide

theorem AesRecord.isFaithful_shape : (Recorded.shape AesRecord).IsFaithful := by
  decide

/-- Every record of a key store survives its JSON text. -/
theorem records_survive_text :
    Recorded.SurvivesText Envelope ∧ Recorded.SurvivesText KeyMetadata ∧
      Recorded.SurvivesText KeyVersion ∧ Recorded.SurvivesText RsaPublicRecord ∧
      Recorded.SurvivesText RsaPrivateRecord ∧ Recorded.SurvivesText AesRecord ∧
      Recorded.SurvivesText HmacRecord := by
  refine ⟨?_, ?_, ?_, ?_, ?_, ?_, ?_⟩
  · exact Recorded.survivesText_of_isFaithful Envelope.isFaithful_shape
  · exact Recorded.survivesText_of_isFaithful KeyMetadata.isFaithful_shape
  · exact Recorded.survivesText_of_isFaithful KeyVersion.isFaithful_shape
  · exact Recorded.survivesText_of_isFaithful RsaPublicRecord.isFaithful_shape
  · exact Recorded.survivesText_of_isFaithful RsaPrivateRecord.isFaithful_shape
  · exact Recorded.survivesText_of_isFaithful AesRecord.isFaithful_shape
  · exact Recorded.survivesText_of_isFaithful HmacRecord.isFaithful_shape

end KeyStore
