import KeyStore.Digest.PasswordKey

/-!
# The length of derived keys

Every link of the chain of keyed digests has twenty bytes, so the sum over the chain has twenty
bytes for every password, salt and number of iterations, and sixteen of them are a cipher key.
-/

namespace KeyStore

theorem Bytes.length_xor (left right : Bytes) :
    (Bytes.xor left right).length = min left.length right.length := by
  rw [Bytes.xor, List.length_zipWith]

theorem Hmac.Keyed.length_digest (keyed : Hmac.Keyed) (message : Bytes) :
    (keyed.digest message).length = Sha1.digestLength :=
  rfl

namespace PasswordKey

theorem length_chainSum (keyed : Hmac.Keyed) (count : Nat) (link : Bytes) {sum : Bytes}
    (length : sum.length = Sha1.digestLength) :
    (chainSum keyed count link sum).length = Sha1.digestLength := by
  induction count generalizing link sum with
  | zero =>
      exact length
  | succ count inductionHypothesis =>
      apply inductionHypothesis
      rw [Bytes.length_xor, length, Hmac.Keyed.length_digest, Nat.min_self]

theorem derive?_zero (password salt : Bytes) : derive? password salt 0 = none :=
  rfl

/-- A key is derived once one iteration is asked for, and it has the length of a cipher key. -/
theorem exists_derive?_eq (password salt : Bytes) {iterations : UInt32}
    (positive : iterations ≠ 0) :
    ∃ key, derive? password salt iterations = some key ∧ key.length = keyLength := by
  rw [derive?, if_neg positive]
  refine ⟨_, rfl, ?_⟩
  rw [List.length_take, length_chainSum _ _ _ (Hmac.Keyed.length_digest _ _)]
  decide

end PasswordKey

end KeyStore
