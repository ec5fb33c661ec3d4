import KeyStore.Protection
import KeyStore.Proofs.Digest.PasswordKey
import KeyStore.Proofs.Digest.Sha1Rules

/-!
# Derived keys by their rules

The keyed digest and the key of a password once more, by the equations that define them. The states
that hold a key which has been taken up give the keyed digest of every message, and the running sum
over the chain of digests is the sum of its links, so a key is derived by these rules for every
password, salt and number of iterations.
-/

namespace KeyStore

namespace Hmac

/-- The key as a block of 64 bytes: the digest of a longer key stands for the key, and zero bytes
fill the rest. -/
def keyRule (key : Bytes) : Bytes :=
  if key.length ≤ 64 then
    key ++ List.replicate (64 - key.length) 0
  else
    Sha1.digestRule key ++ List.replicate 44 0

/-- The keyed digest of a message by the rules. -/
def digestRule (key message : Bytes) : Bytes :=
  Sha1.digestRule (Bytes.xor (keyRule key) (List.replicate 64 0x5c) ++
    Sha1.digestRule (Bytes.xor (keyRule key) (List.replicate 64 0x36) ++ message))

theorem keyBlock_eq_keyRule (key : Bytes) : keyBlock key = keyRule key := by
  rw [keyBlock, keyRule, Sha1.blockLength]
  by_cases short : key.length ≤ 64
  · rw [if_neg (Nat.not_lt.mpr short), if_pos short]
  · rw [if_pos (Nat.not_le.mp short), if_neg short, ← Sha1.digest_eq_digestRule]
    rfl

theorem length_keyBlock (key : Bytes) : (keyBlock key).length = 64 := by
  rw [keyBlock_eq_keyRule, keyRule]
  split
  · next short =>
      rw [List.length_append, List.length_replicate]
      omega
  · rw [List.length_append, List.length_replicate, ← Sha1.digest_eq_digestRule]
    rfl

theorem length_maskedKey (key : Bytes) (mask : UInt8) : (maskedKey key mask).length = 64 := by
  rw [maskedKey, List.length_map, length_keyBlock]

theorem map_xor_eq (bytes : Bytes) (mask : UInt8) :
    bytes.map (· ^^^ mask) = Bytes.xor bytes (List.replicate bytes.length mask) := by
  induction bytes with
  | nil => rfl
  | cons byte rest inductionHypothesis =>
      rw [List.map_cons, inductionHypothesis]
      rfl

theorem maskedKey_eq (key : Bytes) (mask : UInt8) :
    maskedKey key mask = Bytes.xor (keyRule key) (List.replicate 64 mask) := by
  rw [maskedKey, map_xor_eq, length_keyBlock, keyBlock_eq_keyRule]

/-- A key that has been taken up gives the keyed digest of every message. -/
theorem digest_ofKey (key message : Bytes) :
    (Keyed.ofKey key).digest message = hmacSha1 key message := by
  have resumed (mask : UInt8) (rest : Bytes) :
      Sha1.finish Sha1.blockLength (Sha1.absorb .initial (maskedKey key mask)) rest =
        Sha1.digest (maskedKey key mask ++ rest) := by
    have length := length_maskedKey key mask
    rw [← Sha1.finish_absorb (by rw [length]), length, Sha1.blockLength]
  rw [Keyed.digest, Keyed.ofKey, resumed, resumed, hmacSha1]

theorem hmacSha1_eq_digestRule (key message : Bytes) :
    hmacSha1 key message = digestRule key message := by
  rw [hmacSha1, Sha1.digest_eq_digestRule, Sha1.digest_eq_digestRule, maskedKey_eq, maskedKey_eq]
  rfl

end Hmac

namespace PasswordKey

/-- Link `index` of the chain, counted from zero: the digest of the salt and the number of the only
block, then each time the digest of the link before. -/
def link (password salt : Bytes) : (index : Nat) → Bytes
  | 0 => Hmac.digestRule password (salt ++ [0, 0, 0, 1])
  | index + 1 => Hmac.digestRule password (link password salt index)

/-- The exclusive or of the first `count` links. -/
def linkSum (password salt : Bytes) : (count : Nat) → Bytes
  | 0 => List.replicate 20 0
  | index + 1 => Bytes.xor (linkSum password salt index) (link password salt index)

theorem digest_eq_link (password salt : Bytes) :
    (Hmac.Keyed.ofKey password).digest (salt ++ blockNumber) = link password salt 0 := by
  rw [Hmac.digest_ofKey, Hmac.hmacSha1_eq_digestRule]
  rfl

theorem digest_link (password salt : Bytes) (index : Nat) :
    (Hmac.Keyed.ofKey password).digest (link password salt index) =
      link password salt (index + 1) := by
  rw [Hmac.digest_ofKey, Hmac.hmacSha1_eq_digestRule]
  rfl

theorem zeros_xor (bytes : Bytes) : Bytes.xor (List.replicate bytes.length 0) bytes = bytes := by
  induction bytes with
  | nil => rfl
  | cons byte rest inductionHypothesis =>
      rw [List.length_cons, List.replicate_succ, Bytes.xor, List.zipWith_cons_cons, ← Bytes.xor,
        inductionHypothesis, UInt8.zero_xor]

theorem linkSum_one (password salt : Bytes) : linkSum password salt 1 = link password salt 0 := by
  have length : (link password salt 0).length = 20 := by
    rw [← digest_eq_link]
    exact Hmac.Keyed.length_digest _ _
  rw [linkSum, linkSum, ← length, zeros_xor]

/-- From each link on, the running sum goes on to the sum of all links. -/
theorem chainSum_eq (password salt : Bytes) (index count : Nat) :
    chainSum (.ofKey password) count (link password salt index)
        (linkSum password salt (index + 1)) = linkSum password salt (index + 1 + count) := by
  induction count generalizing index with
  | zero => rfl
  | succ count inductionHypothesis =>
      rw [chainSum, digest_link, ← linkSum, inductionHypothesis, Nat.add_right_comm _ 1 count,
        Nat.add_assoc _ count 1]

theorem derive?_eq (password salt : Bytes) {iterations : UInt32} (positive : iterations ≠ 0) :
    derive? password salt iterations =
      some ((linkSum password salt iterations.toNat).take 16) := by
  have count : 0 + 1 + (iterations.toNat - 1) = iterations.toNat := by
    have nonzero : iterations.toNat ≠ 0 := fun zero => positive (UInt32.toNat_inj.mp zero)
    omega
  have sum := chainSum_eq password salt 0 (iterations.toNat - 1)
  rw [count, Nat.zero_add, linkSum_one] at sum
  rw [derive?, if_neg positive]
  simp only [digest_eq_link, sum, keyLength]

end PasswordKey

namespace Envelope

/-- A key is the start of the exclusive or of as many links as iterations are asked for, and only
zero iterations are refused. -/
theorem deriveKey_eq_start_of_linkSum (password salt : Bytes) (iterations : UInt32) :
    deriveKey password salt iterations =
      if iterations = 0 then .error .noIterations
      else .ok ((PasswordKey.linkSum password salt iterations.toNat).take 16) := by
  by_cases zero : iterations = 0
  · rw [if_pos zero, zero, deriveKey, PasswordKey.derive?_zero]
  · rw [if_neg zero, deriveKey, PasswordKey.derive?_eq password salt zero]

example :
    deriveKey (Utf8.encode "password") (Utf8.encode "salt") 1 =
      .ok [0x0c, 0x60, 0xc8, 0x0f, 0x96, 0x1f, 0x0e, 0x71, 0xf3, 0xa9, 0xb5, 0x24, 0xaf, 0x60,
        0x12, 0x06] := by
  decide +kernel

end Envelope

end KeyStore
