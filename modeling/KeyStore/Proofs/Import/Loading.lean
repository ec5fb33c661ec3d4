import KeyStore.Import.Importer
import KeyStore.Proofs.Outcomes
import KeyStore.Proofs.Pem

/-!
# Loading the block of a file

What a file holds is read back however it is laid out, so the outcome of an import depends on the
contents of the block alone, and the store that it makes reads no file any more.
-/

namespace KeyStore

open Log

namespace FileAccess

/-- The file at a path holds a byte string as its first block, in some layout. -/
def HoldsBlock (files : FileAccess) (path : String) (contents : Bytes) : Prop :=
  ∃ layout : Pem.Layout, files path = .ok (Utf8.encode (layout.text contents))

/-- The file at a path is text whose first block is the given one. -/
def FirstBlock (files : FileAccess) (path : String) (block : Pem.Block) : Prop :=
  ∃ text, files path = .ok (Utf8.encode text) ∧ Pem.parse text = .ok block

/-- Files that all hold a byte string, in a block that stands alone. -/
def holding (contents : Bytes) : FileAccess :=
  let layout := Pem.Layout.alone ['K', 'E', 'Y'] (by decide) (by decide)
  fun _ => .ok (Utf8.encode (layout.text contents))

theorem holdsBlock_holding (contents : Bytes) (path : String) :
    (holding contents).HoldsBlock path contents :=
  ⟨_, rfl⟩

def single (path : String) (contents : Bytes) : FileAccess := fun other =>
  if other = path then .ok contents else .error .missing

theorem single_same (path : String) (contents : Bytes) : single path contents path = .ok contents :=
  if_pos rfl

theorem firstBlock_of_layout {files : FileAccess} {path : String} {contents : Bytes}
    (layout : Pem.Layout) (file : files path = .ok (Utf8.encode (layout.text contents))) :
    files.FirstBlock path ⟨String.ofList layout.tag, contents⟩ :=
  ⟨_, file, layout.parse_text contents⟩

end FileAccess

section Loading

variable {files : FileAccess} {path : String} {contents : Bytes}

theorem readBlock_of_firstBlock {block : Pem.Block} (first : files.FirstBlock path block) :
    readBlock files path =
      ⟨[.readingFile path, .decodedBlock path block.tag], .ok block.contents⟩ := by
  obtain ⟨text, file, parsed⟩ := first
  have entry : readEntry files path = ⟨[.readingFile path], .ok text⟩ := by
    rw [readEntry, FileAccess.readText_of_file file]
    rfl
  rw [readBlock, entry, Traced.bind_of_ok rfl, parsed]
  rfl

theorem outcome_readBlock (holds : files.HoldsBlock path contents) :
    (readBlock files path).outcome = .ok contents := by
  obtain ⟨layout, file⟩ := holds
  rw [readBlock_of_firstBlock (FileAccess.firstBlock_of_layout layout file)]

theorem readText_eq_ok_iff {text : String} :
    files.readText path = .ok text ↔ files path = .ok (Utf8.encode text) := by
  constructor
  · intro read
    rw [FileAccess.readText] at read
    cases file : files path with
    | error fault =>
        rw [file] at read
        contradiction
    | ok bytes =>
        rw [file] at read
        simp only [FileFault.textOf] at read
        split at read
        · next decoded =>
            obtain rfl := Except.ok.inj read
            rw [Utf8.decode?_eq_some_iff.mp decoded]
        · contradiction
  · exact FileAccess.readText_of_file

theorem outcome_readBlock_of_unreadable {fault : FileFault}
    (failed : files.readText path = .error fault) :
    (readBlock files path).outcome = .error (.file path fault) := by
  simp only [readBlock, readEntry, failed, Traced.outcome_bind, Traced.outcome_emit,
    Traced.outcome_ofOutcome, Except.bind]

theorem outcome_readBlock_of_malformed {text : String} {fault : Pem.Fault}
    (file : files path = .ok (Utf8.encode text)) (failed : Pem.parse text = .error fault) :
    (readBlock files path).outcome = .error (.armour fault) := by
  simp only [readBlock, Traced.outcome_bind, outcome_readEntry file, Except.bind, failed,
    Traced.outcome_ofOutcome]

theorem exists_firstBlock_of_readBlock (read : (readBlock files path).outcome = .ok contents) :
    ∃ block, files.FirstBlock path block ∧ block.contents = contents := by
  cases file : files.readText path with
  | error fault =>
      rw [outcome_readBlock_of_unreadable file] at read
      contradiction
  | ok text =>
      have readable := readText_eq_ok_iff.mp file
      cases parsed : Pem.parse text with
      | error fault =>
          rw [outcome_readBlock_of_malformed readable parsed] at read
          contradiction
      | ok block =>
          have first : files.FirstBlock path block := ⟨text, readable, parsed⟩
          rw [readBlock_of_firstBlock first] at read
          exact ⟨block, first, Except.ok.inj read⟩

theorem outcome_loadPrivateKey_of_readBlock
    (block : (readBlock files path).outcome = .ok contents) :
    (loadPrivateKey files path).outcome = decodePrivateKey contents := by
  simp only [loadPrivateKey, Traced.outcome_bind, block, Except.bind, Traced.outcome_ofOutcome]

theorem outcome_loadPrivateKey (holds : files.HoldsBlock path contents) :
    (loadPrivateKey files path).outcome = decodePrivateKey contents :=
  outcome_loadPrivateKey_of_readBlock (outcome_readBlock holds)

/-- A private key that is loaded stands in the first block of its file. -/
theorem exists_decodePrivateKey_of_load
    {key : Rsa.PrivateKey} (loaded : (loadPrivateKey files path).outcome = .ok key) :
    ∃ payload, (readBlock files path).outcome = .ok payload ∧
      decodePrivateKey payload = .ok key := by
  rw [loadPrivateKey, Traced.outcome_bind] at loaded
  exact exists_of_bind_eq_ok loaded

theorem outcome_loadPublicKey_of_readBlock
    (block : (readBlock files path).outcome = .ok contents) :
    (loadPublicKey files path).outcome = decodePublicKey contents := by
  simp only [loadPublicKey, Traced.outcome_bind, block, Except.bind, Traced.outcome_ofOutcome]

theorem outcome_loadPublicKey (holds : files.HoldsBlock path contents) :
    (loadPublicKey files path).outcome = decodePublicKey contents :=
  outcome_loadPublicKey_of_readBlock (outcome_readBlock holds)

theorem outcome_loadCertifiedKey (holds : files.HoldsBlock path contents) :
    (loadCertifiedKey files path).outcome = decodeCertifiedKey contents := by
  simp only [loadCertifiedKey, Traced.outcome_bind, outcome_readBlock holds, Except.bind,
    Traced.outcome_ofOutcome]

end Loading

namespace Importer

variable {importer : Importer} {files : FileAccess} {path : String}

theorem outcome_run (importer : Importer) (files : FileAccess) (path : String) :
    (importer.run files path).outcome =
      (loadStore files path importer.purpose importer.source).outcome := by
  simp only [run, Traced.outcome_bind, Traced.outcome_emit, Traced.outcome_pure]
  cases (loadStore files path importer.purpose importer.source).outcome <;> rfl

theorem outcome_run_of_privateKey (source : importer.source = .privateKey) :
    (importer.run files path).outcome =
      (loadPrivateKey files path).outcome.map (.ofPrivateKey · importer.purpose) := by
  rw [outcome_run, source, loadStore, Traced.outcome_bind]
  rfl

theorem outcome_run_of_publicKey (source : importer.source = .publicKey) :
    (importer.run files path).outcome =
      (loadPublicKey files path).outcome.map (.ofPublicKey · importer.purpose) := by
  rw [outcome_run, source, loadStore, Traced.outcome_bind]
  rfl

theorem outcome_run_of_certificate (source : importer.source = .certificate) :
    (importer.run files path).outcome =
      (loadCertifiedKey files path).outcome.map (.ofPublicKey · importer.purpose) := by
  rw [outcome_run, source, loadStore, Traced.outcome_bind]
  rfl

theorem events_loadStore (purpose : KeyPurpose) (source : KeySource) :
    (loadStore files path purpose source).events = (readBlock files path).events := by
  cases source with
  | privateKey =>
      rw [loadStore, Traced.events_bind_of_silent fun _ => rfl, loadPrivateKey,
        Traced.events_bind_of_silent fun _ => rfl]
  | publicKey =>
      rw [loadStore, Traced.events_bind_of_silent fun _ => rfl, loadPublicKey,
        Traced.events_bind_of_silent fun _ => rfl]
  | certificate =>
      rw [loadStore, Traced.events_bind_of_silent fun _ => rfl, loadCertifiedKey,
        Traced.events_bind_of_silent fun _ => rfl]

/-- The events of an import that succeeds tell the path, the tag and the purpose. -/
theorem events_run_of_ok {block : Pem.Block} {reader : Reader}
    (first : files.FirstBlock path block)
    (imported : (importer.run files path).outcome = .ok reader) :
    (importer.run files path).events =
      [.readingFile path, .decodedBlock path block.tag,
        .importedKey importer.source path importer.purpose] := by
  rw [outcome_run] at imported
  rw [run, Traced.bind_of_ok imported, events_loadStore, readBlock_of_firstBlock first]
  rfl

theorem exists_imported_of_run {reader : Reader}
    (imported : (importer.run files path).outcome = .ok reader) :
    ∃ metadata key, reader = .imported metadata key := by
  cases source : importer.source with
  | privateKey =>
      rw [outcome_run_of_privateKey source] at imported
      obtain ⟨key, _, rfl⟩ := exists_of_map_eq_ok imported
      exact ⟨_, _, rfl⟩
  | publicKey =>
      rw [outcome_run_of_publicKey source] at imported
      obtain ⟨key, _, rfl⟩ := exists_of_map_eq_ok imported
      exact ⟨_, _, rfl⟩
  | certificate =>
      rw [outcome_run_of_certificate source] at imported
      obtain ⟨key, _, rfl⟩ := exists_of_map_eq_ok imported
      exact ⟨_, _, rfl⟩

end Importer

namespace Reader

variable (files : FileAccess) (version : UInt32) (purpose : KeyPurpose)

theorem outcome_key_ofPrivateKey (key : Rsa.PrivateKey) :
    ((ofPrivateKey key purpose).key files version).outcome =
      .ok (Recorded.serialize (RsaPrivateRecord.ofKey key)) :=
  rfl

theorem outcome_key_ofPublicKey (key : Rsa.PublicKey) :
    ((ofPublicKey key purpose).key files version).outcome =
      .ok (Recorded.serialize (RsaPublicRecord.ofKey key)) :=
  rfl

end Reader

end KeyStore
