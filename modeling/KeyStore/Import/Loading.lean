import KeyStore.Der.Certificate
import KeyStore.Reader.Basic

/-!
# Loading keys from PEM files

A PEM file holds a private RSA key, a public key, or a certificate. Each stage can fail, and the
first that does decides the fault: reading the file, its armour, the structure inside, the algorithm
of the key, and at last the key itself.
-/

namespace KeyStore

open Log

def readBlock (files : FileAccess) (path : String) : Traced StoreFault Bytes := do
  let text ← readEntry files path
  match Pem.parse text with
  | .error fault => Traced.ofOutcome (.error (.armour fault))
  | .ok block => do
      Traced.emit (.decodedBlock path block.tag)
      return block.contents

def decodePrivateKey (bytes : Bytes) : Except StoreFault Rsa.PrivateKey :=
  match Rsa.PrivateKey.decode bytes with
  | .ok key => .ok key
  | .error fault => .error (.rsa fault)

/-- The RSA key of public key information. The algorithm is compared before the key is looked at. -/
def rsaKey (info : Der.PublicKeyInfo) : Except StoreFault Rsa.PublicKey :=
  if info.algorithm.algorithm ≠ .rsaEncryption then
    .error (.notRsa info.algorithm.algorithm)
  else
    match Rsa.PublicKey.decode info.key with
    | .ok key => .ok key
    | .error fault => .error (.rsa fault)

/-- The RSA key of public key information, if there is such information at all. -/
def rsaKeyOf : Option Der.PublicKeyInfo → Except StoreFault Rsa.PublicKey
  | some info => rsaKey info
  | none => .error .der

def decodePublicKey (bytes : Bytes) : Except StoreFault Rsa.PublicKey :=
  rsaKeyOf (Der.PublicKeyInfo.decode? bytes)

def decodeCertifiedKey (bytes : Bytes) : Except StoreFault Rsa.PublicKey :=
  rsaKeyOf (Der.certifiedKey? bytes)

def loadPrivateKey (files : FileAccess) (path : String) : Traced StoreFault Rsa.PrivateKey := do
  Traced.ofOutcome (decodePrivateKey (← readBlock files path))

def loadPublicKey (files : FileAccess) (path : String) : Traced StoreFault Rsa.PublicKey := do
  Traced.ofOutcome (decodePublicKey (← readBlock files path))

def loadCertifiedKey (files : FileAccess) (path : String) : Traced StoreFault Rsa.PublicKey := do
  Traced.ofOutcome (decodeCertifiedKey (← readBlock files path))

end KeyStore
