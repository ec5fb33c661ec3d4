import KeyStore.Record.Metadata
import KeyStore.StoreFault
import KeyStore.Text.Quoted

/-!
# Events

What readers and importers report while they work. Every event has a level and comes from a named
part of the program.
-/

namespace KeyStore.Log

/-- How much an event matters, the gravest first. -/
inductive Level where
  | error
  | warn
  | info
  | debug
  | trace
deriving DecidableEq, Repr

/-- The place of a level in the order of gravity, counted from one. -/
def Level.rank : Level → Nat
  | .error => 1
  | .warn => 2
  | .info => 3
  | .debug => 4
  | .trace => 5

def Level.name : Level → String
  | .error => "ERROR"
  | .warn => "WARN"
  | .info => "INFO"
  | .debug => "DEBUG"
  | .trace => "TRACE"

inductive KeySource where
  | privateKey
  | publicKey
  | certificate
deriving DecidableEq, Repr

def KeySource.phrase : KeySource → String
  | .privateKey => "RSA private key"
  | .publicKey => "RSA public key"
  | .certificate => "RSA public key from certificate"

def purposePhrase : KeyPurpose → String
  | .decryptAndEncrypt => "DecryptAndEncrypt"
  | .encrypt => "Encrypt"
  | .signAndVerify => "SignAndVerify"
  | .verify => "Verify"
  | .test => "Test"

inductive Event where
  | readingFile (path : String)
  | openingKey (version iterations : UInt32)
  | rejectedEnvelope (version : UInt32) (fault : StoreFault)
  | decodedBlock (path tag : String)
  | importedKey (source : KeySource) (path : String) (purpose : KeyPurpose)
deriving DecidableEq

namespace Event

def level : Event → Level
  | .rejectedEnvelope _ _ => .warn
  | _ => .debug

def origin : Event → String
  | .readingFile _ => "kzreader::storage"
  | .openingKey _ _ | .rejectedEnvelope _ _ => "kzreader::reader::pbe"
  | .decodedBlock _ _ => "kzreader::import::loader"
  | .importedKey _ _ _ => "kzreader::import"

def fields : Event → List String
  | .readingFile _ => ["message", "path"]
  | .openingKey _ _ => ["iterations", "message", "version"]
  | .rejectedEnvelope _ _ => ["error", "message", "version"]
  | .decodedBlock _ _ => ["message", "path", "tag"]
  | .importedKey _ _ _ => ["message", "path", "purpose"]

def message : Event → String
  | .readingFile path => "reading key store entry path=" ++ path
  | .openingKey version iterations =>
      "opening password protected key version=" ++ toString version ++ " iterations=" ++
        toString iterations
  | .rejectedEnvelope version fault =>
      "rejected key envelope version=" ++ toString version ++ " error=" ++ fault.message
  | .decodedBlock path tag => "decoded PEM block path=" ++ path ++ " tag=" ++ Quoted.encode tag
  | .importedKey source path purpose =>
      "imported " ++ source.phrase ++ " path=" ++ path ++ " purpose=" ++ purposePhrase purpose

def text (event : Event) : String :=
  event.level.name ++ " " ++ event.message

end Event

end KeyStore.Log
