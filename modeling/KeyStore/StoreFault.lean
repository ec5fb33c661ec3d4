import KeyStore.Base64.Basic
import KeyStore.Cipher.Chaining
import KeyStore.Files.Access
import KeyStore.Json.Fault
import KeyStore.Pem
import KeyStore.Rsa.Encoding

/-!
# Faults of key stores

Why the metadata or a key of a store cannot be had. Each fault has a kind, which callers may act on,
a wording, and the wordings of the causes below it.
-/

namespace KeyStore

inductive AlgorithmField where
  | cipher
  | hmac
deriving DecidableEq, Repr

def AlgorithmField.name : AlgorithmField → String
  | .cipher => "cipher"
  | .hmac => "hmac"

/-- Why metadata or a key cannot be had. -/
inductive StoreFault where
  | file (path : String) (fault : FileFault)
  | armour (fault : Pem.Fault)
  | base64 (field : String) (fault : Base64.Fault)
  | der
  | rsa (fault : Rsa.Fault)
  | json (fault : Json.LocatedFault)
  | noIterations
  | chaining (fault : Chaining.Fault)
  | notRsa (algorithm : Der.ObjectId)
  | unsupported (field : AlgorithmField) (value : String)
  | notText
  | refused (reason : String)
deriving DecidableEq

inductive FaultKind where
  | file
  | decoding
  | parsing
  | wrongKeyType
  | unsupportedAlgorithm
  | decryption
deriving DecidableEq, Repr

namespace StoreFault

def kind : StoreFault → FaultKind
  | .file _ _ => .file
  | .armour _ | .base64 _ _ => .decoding
  | .der | .rsa _ | .json _ | .noIterations | .chaining _ => .parsing
  | .notRsa _ => .wrongKeyType
  | .unsupported _ _ => .unsupportedAlgorithm
  | .notText | .refused _ => .decryption

def chainingMessage : Chaining.Fault → String
  | .keyOrVectorLength key vector =>
      "expected a 16-byte key and IV, got " ++ toString key ++ " and " ++ toString vector
  | .textLength length => "ciphertext length " ++ toString length ++ " is not a multiple of 16"

def message : StoreFault → String
  | .file path fault => "failed to read '" ++ path ++ "': " ++ fault.message
  | .armour fault => "no PEM block found: " ++ fault.message
  | .base64 field fault => "malformed base64 in '" ++ field ++ "': " ++ fault.message
  | .der => "malformed DER structure: " ++ Rsa.formDetail
  | .rsa fault => "malformed RSA key: " ++ fault.message
  | .json fault => "malformed JSON: " ++ fault.message
  | .noIterations => "invalid key envelope: iteration count must be >= 1"
  | .chaining fault => "invalid key envelope: " ++ chainingMessage fault
  | .notRsa algorithm => "expected an RSA key, found algorithm " ++ algorithm.text
  | .unsupported field value =>
      "unsupported " ++ field.name ++ " '" ++ value ++ "' in key envelope"
  | .notText => "decryption failed: decrypted key is not valid UTF-8"
  | .refused reason => "decryption failed: " ++ reason

def causes : StoreFault → List String
  | .file _ fault => [fault.message]
  | .armour (.invalidData fault) => [(Pem.Fault.invalidData fault).message, fault.message]
  | .armour fault => [fault.message]
  | .base64 _ fault => [fault.message]
  | .der => [Rsa.formDetail]
  | .rsa fault => [fault.message]
  | .json fault => [fault.message]
  | .noIterations | .chaining _ | .notRsa _ | .unsupported _ _ | .notText | .refused _ => []

end StoreFault

def decryptedText (bytes : Bytes) : Except StoreFault String :=
  match Utf8.decode? bytes with
  | some text => .ok text
  | none => .error .notText

end KeyStore
