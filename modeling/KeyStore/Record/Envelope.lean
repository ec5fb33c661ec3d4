import KeyStore.Record.Basic

/-!
# Envelope records

The record that a password protected key version holds. Fields that are missing from its JSON form
are blank.
-/

namespace KeyStore

open Json

/-- A key record that is encrypted under a password. -/
@[ext] structure Envelope where
  cipher : String
  hmac : String
  iterationCount : UInt32
  iv : String
  key : String
  salt : String
deriving DecidableEq, Repr

instance : Recorded Envelope where
  shape := .record "PbeEnvelope" true
    (.cons "cipher" .text
      (.cons "hmac" .text
        (.cons "iterationCount" .word32
          (.cons "iv" .text
            (.cons "key" .text
              (.cons "salt" .text .nil))))))
  toDatum envelope :=
    (envelope.cipher, envelope.hmac, envelope.iterationCount.toFin, envelope.iv, envelope.key,
      envelope.salt, ())
  ofDatum datum :=
    { cipher := datum.1
      hmac := datum.2.1
      iterationCount := .ofFin datum.2.2.1
      iv := datum.2.2.2.1
      key := datum.2.2.2.2.1
      salt := datum.2.2.2.2.2.1 }
  ofDatum_toDatum _ := rfl
  toDatum_ofDatum _ := rfl

end KeyStore
