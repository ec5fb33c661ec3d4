import KeyStore.Import.KeyRecords
import KeyStore.Import.Loading

/-!
# Importers

An importer loads a key from a PEM file and makes a store around it, with metadata of its own. There
is one importer for each source and each purpose that goes with it.
-/

namespace KeyStore

open Log

namespace Reader

def ofPrivateKey (key : Rsa.PrivateKey) (purpose : KeyPurpose) : Reader :=
  .imported (.imported "Imported RSA Private Key" .rsaPrivate purpose)
    (.rsaPrivate (.ofKey key))

def ofPublicKey (key : Rsa.PublicKey) (purpose : KeyPurpose) : Reader :=
  .imported (.imported "Imported RSA Public Key" .rsaPublic purpose)
    (.rsaPublic (.ofKey key))

/-- The store of a key of a block cipher, which always encrypts and decrypts. -/
def ofAesKey (key : AesKey) : Reader :=
  .imported (.imported "Imported AES Key" .aes .decryptAndEncrypt) (.aes (.ofKey key))

end Reader

/-- A source with a purpose that goes with it. -/
inductive Importer where
  | privateKeyToSign
  | privateKeyToCrypt
  | publicKeyToEncrypt
  | publicKeyToVerify
  | certificateToVerify
  | certificateToCrypt
deriving DecidableEq, Repr

namespace Importer

def source : Importer → KeySource
  | .privateKeyToSign | .privateKeyToCrypt => .privateKey
  | .publicKeyToEncrypt | .publicKeyToVerify => .publicKey
  | .certificateToVerify | .certificateToCrypt => .certificate

def purpose : Importer → KeyPurpose
  | .privateKeyToSign => .signAndVerify
  | .privateKeyToCrypt => .decryptAndEncrypt
  | .publicKeyToEncrypt | .certificateToCrypt => .encrypt
  | .publicKeyToVerify | .certificateToVerify => .verify

def loadStore (files : FileAccess) (path : String) (purpose : KeyPurpose) :
    KeySource → Traced StoreFault Reader
  | .privateKey => return .ofPrivateKey (← loadPrivateKey files path) purpose
  | .publicKey => return .ofPublicKey (← loadPublicKey files path) purpose
  | .certificate => return .ofPublicKey (← loadCertifiedKey files path) purpose

def run (importer : Importer) (files : FileAccess) (path : String) : Traced StoreFault Reader := do
  let reader ← loadStore files path importer.purpose importer.source
  Traced.emit (.importedKey importer.source path importer.purpose)
  return reader

end Importer

end KeyStore
