import KeyStore.Digest.Sha1

/-!
# Keyed digests

HMAC over SHA-1. `hmacSha1` is the definition: the digest of the key, masked one way, followed by
the digest of the key, masked the other way, followed by the message. `Hmac.Keyed` holds the two
states after the masked keys, from which the digest of each further message needs no key block.
-/

namespace KeyStore

namespace Hmac

/-- The key as one block: a longer key is replaced by its digest, a shorter one filled with zero
bytes. -/
def keyBlock (key : Bytes) : Bytes :=
  let short := if key.length > Sha1.blockLength then Sha1.digest key else key
  short ++ List.replicate (Sha1.blockLength - short.length) 0

def maskedKey (key : Bytes) (mask : UInt8) : Bytes :=
  (keyBlock key).map (· ^^^ mask)

def innerMask : UInt8 := 0x36

def outerMask : UInt8 := 0x5c

/-- A key that has been taken up by both digests. -/
structure Keyed where
  inner : Sha1.State
  outer : Sha1.State

def Keyed.ofKey (key : Bytes) : Keyed where
  inner := Sha1.absorb .initial (maskedKey key innerMask)
  outer := Sha1.absorb .initial (maskedKey key outerMask)

def Keyed.digest (keyed : Keyed) (message : Bytes) : Bytes :=
  Sha1.finish Sha1.blockLength keyed.outer (Sha1.finish Sha1.blockLength keyed.inner message)

end Hmac

def hmacSha1 (key message : Bytes) : Bytes :=
  Sha1.digest (Hmac.maskedKey key Hmac.outerMask ++
    Sha1.digest (Hmac.maskedKey key Hmac.innerMask ++ message))

end KeyStore
