import KeyStore.Base64.WebSafe
import KeyStore.Digest.PasswordKey
import KeyStore.Record.Envelope
import KeyStore.StoreFault

/-!
# Protection by a password

An envelope holds a byte string encrypted with a key that follows from a password, a salt and a
number of iterations. Decryption checks the envelope in a fixed order: its algorithms, the base64 of
its fields, its number of iterations, and the lengths of its parts. None of these checks depends on
the password. Nothing is padded and nothing is stripped.
-/

namespace KeyStore.Envelope

def cipherName : String := "AES128"

def hmacName : String := "HMAC_SHA1"

/-- Refuses every algorithm but the two known ones, the cipher first. -/
def checkAlgorithms (envelope : Envelope) : Except StoreFault Unit :=
  if envelope.cipher ≠ cipherName then
    .error (.unsupported .cipher envelope.cipher)
  else if envelope.hmac ≠ hmacName then
    .error (.unsupported .hmac envelope.hmac)
  else
    .ok ()

def decodeField (name text : String) : Except StoreFault Bytes :=
  match WebSafe.decode text with
  | .ok bytes => .ok bytes
  | .error fault => .error (.base64 name fault)

def deriveKey (password salt : Bytes) (iterations : UInt32) : Except StoreFault Bytes :=
  match PasswordKey.derive? password salt iterations with
  | some key => .ok key
  | none => .error .noIterations

def decryptText (key vector text : Bytes) : Except StoreFault Bytes :=
  match Chaining.decrypt key vector text with
  | .ok bytes => .ok bytes
  | .error fault => .error (.chaining fault)

def decrypt (envelope : Envelope) (password : Bytes) : Except StoreFault Bytes := do
  envelope.checkAlgorithms
  let salt ← decodeField "salt" envelope.salt
  let vector ← decodeField "iv" envelope.iv
  let text ← decodeField "key" envelope.key
  let key ← deriveKey password salt envelope.iterationCount
  decryptText key vector text

def ofParts (iterations : UInt32) (salt vector text : Bytes) : Envelope where
  cipher := cipherName
  hmac := hmacName
  iterationCount := iterations
  iv := WebSafe.encode vector
  key := WebSafe.encode text
  salt := WebSafe.encode salt

end KeyStore.Envelope
