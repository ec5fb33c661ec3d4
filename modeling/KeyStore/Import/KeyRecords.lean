import KeyStore.Base64.WebSafe
import KeyStore.Record.KeyMaterial
import KeyStore.Record.Metadata
import KeyStore.Rsa.Key

/-!
# Records of imported keys

How a key from elsewhere is written as the record of a key version. Numbers take their shortest
big-endian form and sizes are counted in bits.
-/

namespace KeyStore

def encodeNumber (number : Nat) : String :=
  WebSafe.encode (Bytes.ofNat number)

def RsaPublicRecord.ofKey (key : Rsa.PublicKey) : RsaPublicRecord where
  modulus := encodeNumber key.modulus
  publicExponent := encodeNumber key.exponent
  size := UInt64.ofNat key.size

/-- An exponent that is at hand, or else the private exponent modulo the factor less one. -/
def crtExponent (precomputed : Option Nat) (exponent factor : Nat) : Nat :=
  precomputed.getD (exponent % (factor - 1))

/-- The record of a private RSA key. A coefficient that does not exist is written as zero. -/
def RsaPrivateRecord.ofKey (key : Rsa.PrivateKey) : RsaPrivateRecord where
  crtCoefficient := encodeNumber (key.coefficient?.getD 0)
  primeExponentP :=
    encodeNumber (crtExponent (key.precomputed?.map Rsa.Precomputed.exponentP) key.exponent key.p)
  primeExponentQ :=
    encodeNumber (crtExponent (key.precomputed?.map Rsa.Precomputed.exponentQ) key.exponent key.q)
  primeP := encodeNumber key.p
  primeQ := encodeNumber key.q
  privateExponent := encodeNumber key.exponent
  publicKey := .ofKey key.publicKey
  size := UInt64.ofNat key.publicKey.size

structure AesKey where
  key : Bytes
  hmacKey : Bytes
deriving DecidableEq, Repr

def bitCount (bytes : Bytes) : UInt64 :=
  UInt64.ofNat (8 * bytes.length)

def AesRecord.ofKey (key : AesKey) : AesRecord where
  aesKeyString := WebSafe.encode key.key
  hmacKey := ⟨WebSafe.encode key.hmacKey, bitCount key.hmacKey⟩
  mode := .cbc
  size := bitCount key.key

end KeyStore
