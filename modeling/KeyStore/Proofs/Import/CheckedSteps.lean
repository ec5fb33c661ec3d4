import KeyStore.Proofs.Import.KeyRecords
import KeyStore.Proofs.Import.Loading

/-!
# Private records in checked steps

To take a factor out of a row, to subtract and to divide is not always possible. Here the record of
a private key is worked out in steps that break down where they are not possible, from parts on
which there is no condition. The record comes out exactly if there are two factors, both above one
unless the exponents are at hand; for a key it is the record of that key.
-/

namespace KeyStore

open Log

inductive Breakdown where
  | noFactor (place : Nat)
  | negativeDifference
  | zeroDivisor
deriving DecidableEq, Repr

namespace Checked

def factorAt (factors : List Nat) (place : Nat) : Except Breakdown Nat :=
  match factors[place]? with
  | some factor => .ok factor
  | none => .error (.noFactor place)

def difference (left right : Nat) : Except Breakdown Nat :=
  if left < right then .error .negativeDifference else .ok (left - right)

def remainder (number divisor : Nat) : Except Breakdown Nat :=
  if divisor = 0 then .error .zeroDivisor else .ok (number % divisor)

/-- An exponent that is at hand, or else the private exponent modulo the factor less one. -/
def crtExponent (precomputed : Option Nat) (exponent factor : Nat) : Except Breakdown Nat :=
  match precomputed with
  | some known => .ok known
  | none => do remainder exponent (← difference factor 1)

theorem factorAt_eq_ok_iff {factors : List Nat} {place factor : Nat} :
    factorAt factors place = .ok factor ↔ factors[place]? = some factor := by
  rw [factorAt]
  split
  · next found =>
      rw [found, Except.ok.injEq, Option.some.injEq]
  · next missing =>
      rw [missing]
      exact ⟨fun impossible => by contradiction, fun impossible => by contradiction⟩

/-- An exponent that is not at hand comes out for all factors but zero and one. -/
theorem crtExponent_none (exponent factor : Nat) :
    crtExponent none exponent factor =
      if factor = 0 then .error .negativeDifference
      else if factor = 1 then .error .zeroDivisor
      else .ok (exponent % (factor - 1)) := by
  match factor with
  | 0 => rfl
  | 1 => rfl
  | factor + 2 => rfl

example : crtExponent none 7 1 = .error .zeroDivisor := rfl

theorem crtExponent_eq_ok_iff {precomputed : Option Nat} {exponent factor result : Nat} :
    crtExponent precomputed exponent factor = .ok result ↔
      (precomputed = none → 1 < factor) ∧
        result = KeyStore.crtExponent precomputed exponent factor := by
  cases precomputed with
  | some known =>
      rw [crtExponent, KeyStore.crtExponent, Option.getD_some, Except.ok.injEq]
      exact ⟨fun same => ⟨fun absent => by contradiction, same.symm⟩, fun same => same.2.symm⟩
  | none =>
      rw [crtExponent_none, KeyStore.crtExponent, Option.getD_none]
      split
      · next zero => simp [zero]
      · split
        · next one => simp [one]
        · next one =>
            have large : 1 < factor := by omega
            simp [large, eq_comm]

end Checked

/-- What the record of a private key is worked out from: any row of factors, and exponents and a
coefficient that are at hand or not. -/
structure KeyParts where
  publicKey : Rsa.PublicKey
  exponent : Nat
  factors : List Nat
  precomputed : Option Rsa.Precomputed
  coefficient : Option Nat

namespace KeyParts

def ofKey (key : Rsa.PrivateKey) : KeyParts where
  publicKey := key.publicKey
  exponent := key.exponent
  factors := key.factors
  precomputed := key.precomputed?
  coefficient := key.coefficient?

variable (parts : KeyParts)

def recordWith (p q exponentP exponentQ : Nat) : RsaPrivateRecord where
  crtCoefficient := encodeNumber (parts.coefficient.getD 0)
  primeExponentP := encodeNumber exponentP
  primeExponentQ := encodeNumber exponentQ
  primeP := encodeNumber p
  primeQ := encodeNumber q
  privateExponent := encodeNumber parts.exponent
  publicKey := .ofKey parts.publicKey
  size := UInt64.ofNat parts.publicKey.size

/-- The exponent for a factor: the picked one of those at hand, or else the one worked out. -/
def exponentFor (pick : Rsa.Precomputed → Nat) (factor : Nat) : Except Breakdown Nat :=
  Checked.crtExponent (parts.precomputed.map pick) parts.exponent factor

def record : Except Breakdown RsaPrivateRecord := do
  let p ← Checked.factorAt parts.factors 0
  let q ← Checked.factorAt parts.factors 1
  let exponentP ← parts.exponentFor Rsa.Precomputed.exponentP p
  let exponentQ ← parts.exponentFor Rsa.Precomputed.exponentQ q
  return parts.recordWith p q exponentP exponentQ

variable {parts}

theorem exponentFor_eq_ok_iff {pick : Rsa.Precomputed → Nat} {factor result : Nat} :
    parts.exponentFor pick factor = .ok result ↔
      (parts.precomputed = none → 1 < factor) ∧
        result = crtExponent (parts.precomputed.map pick) parts.exponent factor := by
  rw [exponentFor, Checked.crtExponent_eq_ok_iff, Option.map_eq_none_iff]

theorem factorAt_pair_iff {p q : Nat} :
    Checked.factorAt parts.factors 0 = .ok p ∧ Checked.factorAt parts.factors 1 = .ok q ↔
      ∃ rest, parts.factors = p :: q :: rest := by
  rw [Checked.factorAt_eq_ok_iff, Checked.factorAt_eq_ok_iff]
  match parts.factors with
  | [] => simp
  | [_] => simp
  | _ :: _ :: _ => simp

/-- The record comes out exactly if there are two factors, both above one unless the exponents are
at hand. -/
theorem record_eq_ok_iff {result : RsaPrivateRecord} :
    parts.record = .ok result ↔
      ∃ p q rest, parts.factors = p :: q :: rest ∧
        (parts.precomputed = none → 1 < p ∧ 1 < q) ∧
        result = parts.recordWith p q
          (crtExponent (parts.precomputed.map Rsa.Precomputed.exponentP) parts.exponent p)
          (crtExponent (parts.precomputed.map Rsa.Precomputed.exponentQ) parts.exponent q) := by
  constructor
  · intro made
    obtain ⟨p, first, made⟩ := exists_of_bind_eq_ok made
    obtain ⟨q, second, made⟩ := exists_of_bind_eq_ok made
    obtain ⟨exponentP, hasP, made⟩ := exists_of_bind_eq_ok made
    obtain ⟨exponentQ, hasQ, made⟩ := exists_of_bind_eq_ok made
    obtain ⟨rest, isRow⟩ := factorAt_pair_iff.mp ⟨first, second⟩
    obtain ⟨largeP, rfl⟩ := exponentFor_eq_ok_iff.mp hasP
    obtain ⟨largeQ, rfl⟩ := exponentFor_eq_ok_iff.mp hasQ
    exact ⟨p, q, rest, isRow, fun absent => ⟨largeP absent, largeQ absent⟩,
      (Except.ok.inj made).symm⟩
  · rintro ⟨p, q, rest, isRow, large, rfl⟩
    obtain ⟨first, second⟩ := factorAt_pair_iff.mpr ⟨rest, isRow⟩
    have hasP : parts.exponentFor Rsa.Precomputed.exponentP p = .ok _ :=
      exponentFor_eq_ok_iff.mpr ⟨fun absent => (large absent).1, rfl⟩
    have hasQ : parts.exponentFor Rsa.Precomputed.exponentQ q = .ok _ :=
      exponentFor_eq_ok_iff.mpr ⟨fun absent => (large absent).2, rfl⟩
    rw [record, first, second]
    simp only [bind, Except.bind, hasP, hasQ]
    rfl

/-- For a key the record comes out, whatever exponents and coefficient are at hand. -/
theorem record_of_key (key : Rsa.PrivateKey) (precomputed : Option Rsa.Precomputed)
    (coefficient : Option Nat) :
    { ofKey key with precomputed, coefficient : KeyParts }.record =
      .ok ({ ofKey key with precomputed, coefficient : KeyParts }.recordWith key.p key.q
        (crtExponent (precomputed.map Rsa.Precomputed.exponentP) key.exponent key.p)
        (crtExponent (precomputed.map Rsa.Precomputed.exponentQ) key.exponent key.q)) := by
  have largeP := Rsa.PrivateKey.one_lt_of_mem_factors key.p_mem_factors
  have largeQ := Rsa.PrivateKey.one_lt_of_mem_factors key.q_mem_factors
  exact record_eq_ok_iff.mpr ⟨key.p, key.q, [], rfl, fun _ => ⟨largeP, largeQ⟩, rfl⟩

theorem record_ofKey (key : Rsa.PrivateKey) : (ofKey key).record = .ok (.ofKey key) :=
  record_of_key key key.precomputed? key.coefficient?

end KeyParts

def Reader.ofPrivateRecord (record : RsaPrivateRecord) (purpose : KeyPurpose) : Reader :=
  .imported (.imported "Imported RSA Private Key" .rsaPrivate purpose) (.rsaPrivate record)

namespace Checked

/-- Loads the private key at a path and makes the store around it in checked steps. The outer
outcome tells whether every step could be carried out, and the inner one whether a key was loaded.
-/
def loadStore (files : FileAccess) (path : String) (purpose : KeyPurpose) :
    Except Breakdown (Except StoreFault Reader) :=
  match (loadPrivateKey files path).outcome with
  | .error fault => .ok (.error fault)
  | .ok key => do
      let record ← (KeyParts.ofKey key).record
      return .ok (.ofPrivateRecord record purpose)

/-- No step breaks down, and the store or the fault is the one without checks. -/
theorem loadStore_eq_ok (files : FileAccess) (path : String) (purpose : KeyPurpose) :
    loadStore files path purpose =
      .ok (Importer.loadStore files path purpose .privateKey).outcome := by
  rw [loadStore, Importer.loadStore, Traced.outcome_bind]
  cases (loadPrivateKey files path).outcome with
  | error fault => rfl
  | ok key =>
      simp only [KeyParts.record_ofKey]
      rfl

end Checked

end KeyStore
