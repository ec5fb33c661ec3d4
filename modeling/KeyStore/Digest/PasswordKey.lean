import KeyStore.Digest.Hmac

/-!
# Keys from passwords

PBKDF2 over HMAC-SHA1, cut to the sixteen bytes of a cipher key. One block of output is enough, so
the key is the start of the exclusive or of a chain of keyed digests whose first link is the digest
of the salt and the block number one.
-/

namespace KeyStore.PasswordKey

def keyLength : Nat := 16

def blockNumber : Bytes := [0, 0, 0, 1]

/-- The exclusive or of `sum` with the `count` digests that follow `link` in the chain. -/
def chainSum (keyed : Hmac.Keyed) : (count : Nat) → (link sum : Bytes) → Bytes
  | 0, _, sum => sum
  | count + 1, link, sum =>
      let next := keyed.digest link
      chainSum keyed count next (Bytes.xor sum next)

/-- The key of a password, or `none` if no iteration is asked for. -/
def derive? (password salt : Bytes) (iterations : UInt32) : Option Bytes :=
  if iterations = 0 then
    none
  else
    let keyed := Hmac.Keyed.ofKey password
    let first := keyed.digest (salt ++ blockNumber)
    some ((chainSum keyed (iterations.toNat - 1) first first).take keyLength)

end KeyStore.PasswordKey
