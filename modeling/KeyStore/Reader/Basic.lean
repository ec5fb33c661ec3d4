import KeyStore.Log.Traced
import KeyStore.Protection
import KeyStore.Reader.Location
import KeyStore.Record.KeyMaterial

/-!
# Readers

A reader yields the metadata of a store and the key of each version, both as JSON texts. At the
bottom of every reader is a directory or an imported key; layers around it hand everything on, or
decrypt the keys and leave the metadata alone.
-/

namespace KeyStore

open Log

/-- What a decrypter makes of the text of a key version. -/
abbrev Decrypter := String → Except StoreFault Bytes

/-- A source of metadata and keys. -/
inductive Reader where
  | directory (location : StoreLocation)
  /-- A store around one imported key, which is the key of every version. -/
  | imported (metadata : KeyMetadata) (key : KeyRecord)
  | forwarding (inner : Reader)
  | decrypting (inner : Reader) (decrypter : Decrypter)
  | passwordProtected (inner : Reader) (password : Bytes)

def readEntry (files : FileAccess) (path : String) : Traced StoreFault String := do
  Traced.emit (.readingFile path)
  match files.readText path with
  | .ok text => return text
  | .error fault => Traced.ofOutcome (.error (.file path fault))

theorem outcome_readEntry {files : FileAccess} {path text : String}
    (file : files path = .ok (Utf8.encode text)) : (readEntry files path).outcome = .ok text := by
  simp only [readEntry, FileAccess.readText_of_file file, Traced.outcome_bind,
    Traced.outcome_emit, Traced.outcome_pure, Except.bind]

def parseEnvelope (text : String) : Except StoreFault Envelope :=
  match Recorded.parse Envelope text with
  | .ok envelope => .ok envelope
  | .error fault => .error (.json fault)

/-- The event of an envelope that names an algorithm which is not supported. -/
def rejection (version : UInt32) (fault : StoreFault) : List Event :=
  match fault.kind with
  | .unsupportedAlgorithm => [.rejectedEnvelope version fault]
  | _ => []

/-- Decrypts an envelope and reports one with an unsupported algorithm. -/
def openEnvelope (version : UInt32) (password : Bytes) (envelope : Envelope) :
    Traced StoreFault Bytes :=
  match envelope.decrypt password with
  | .ok bytes => ⟨[], .ok bytes⟩
  | .error fault => ⟨rejection version fault, .error fault⟩

def openProtected (version : UInt32) (password : Bytes) (text : String) :
    Traced StoreFault String := do
  let envelope ← Traced.ofOutcome (parseEnvelope text)
  Traced.emit (.openingKey version envelope.iterationCount)
  let bytes ← openEnvelope version password envelope
  Traced.ofOutcome (decryptedText bytes)

def openEncrypted (decrypter : Decrypter) (text : String) : Except StoreFault String := do
  decryptedText (← decrypter text)

namespace Reader

def metadata (files : FileAccess) : Reader → Traced StoreFault String
  | .directory location => readEntry files location.metadataPath
  | .imported metadata _ => return Recorded.serialize metadata
  | .forwarding inner => inner.metadata files
  | .decrypting inner _ => inner.metadata files
  | .passwordProtected inner _ => inner.metadata files

def key (files : FileAccess) (version : UInt32) : Reader → Traced StoreFault String
  | .directory location => readEntry files (location.versionPath version)
  | .imported _ key => return key.serialize
  | .forwarding inner => inner.key files version
  | .decrypting inner decrypter => do
      let text ← inner.key files version
      Traced.ofOutcome (openEncrypted decrypter text)
  | .passwordProtected inner password => do
      let text ← inner.key files version
      openProtected version password text

end Reader

end KeyStore
