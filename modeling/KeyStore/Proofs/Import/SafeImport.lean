import KeyStore.Proofs.Import.CheckedSteps
import KeyStore.Proofs.Import.PrivateKey
import KeyStore.Proofs.Rsa.Declaration

/-!
# Safe imports of private keys

An import of a private key ends in a store or in a fault, whatever the file holds: no step of it
breaks down. This rests on a bound that no check states. The modulus is odd, so its factors are, and
the congruences of the exponents rule out a factor that is one. The others are at least three, so
that a factor less one is a divisor above one, and the same congruences keep the remainder from
being zero. Forms that declare other factors are refused.
-/

namespace KeyStore

open Log Rsa

/-- The texts of a factor and of the exponent for it: the factor is odd and at least three, and the
exponent lies between one and the factor less two. -/
structure HoldsFactor (factorText exponentText : String) (factor : Nat) : Prop where
  holds : HoldsNumber factorText factor
  odd : factor % 2 = 1
  large : 3 ≤ factor
  exponent : ∃ exponent, HoldsNumber exponentText exponent ∧ 1 ≤ exponent ∧ exponent ≤ factor - 2

theorem holdsFactor_of_mem_factors {key : Rsa.PrivateKey} {factor : Nat}
    (pick : Rsa.Precomputed → Nat) (member : factor ∈ key.factors)
    (picked : pick ⟨key.exponentP, key.exponentQ⟩ = key.exponent % (factor - 1)) :
    HoldsFactor (encodeNumber factor)
      (encodeNumber (crtExponent (key.precomputed?.map pick) key.exponent factor)) factor where
  holds := holdsNumber_factor member
  odd := PrivateKey.odd_of_mem_factors member
  large := PrivateKey.three_le_of_mem_factors member
  exponent :=
    ⟨_, holdsNumber_exponent pick member picked, PrivateKey.exponent_mod_bounds member⟩

section Loading

variable {files : FileAccess} {path : String} {purpose : KeyPurpose} {key : Rsa.PrivateKey}

/-- A key that is loaded is the one of a declaration of two factors in the first block. -/
theorem exists_twoFactors_of_load (loaded : (loadPrivateKey files path).outcome = .ok key) :
    ∃ block numbers, files.FirstBlock path block ∧
      block.contents = (Declaration.twoFactors numbers).form.encode ∧
      key.factors = [numbers.p, numbers.q] := by
  obtain ⟨payload, read, decoded⟩ := exists_decodePrivateKey_of_load loaded
  obtain ⟨block, first, rfl⟩ := exists_firstBlock_of_readBlock read
  obtain ⟨declaration, written, _, made⟩ :=
    PrivateKey.exists_declaration_of_decode (decodePrivateKey_eq_ok_iff.mp decoded)
  obtain ⟨two, sameFactors, _⟩ := Declaration.eq_twoFactors_of_key? made
  refine ⟨block, declaration.numbers, first, ?_, ?_⟩
  · rw [← two]
    exact written
  · rw [← sameFactors, two]
    rfl

namespace Importer

theorem outcome_loadStore_of_load (loaded : (loadPrivateKey files path).outcome = .ok key) :
    (loadStore files path purpose .privateKey).outcome = .ok (.ofPrivateKey key purpose) := by
  rw [loadStore, Traced.outcome_bind, loaded]
  rfl

/-- What is known of a private key that is loaded, of the steps to its record, and of the record. -/
structure LoadsSafely (files : FileAccess) (path : String) (purpose : KeyPurpose)
    (key : Rsa.PrivateKey) : Prop where
  /-- The first block of the file declares two factors, and the key has these and no others. -/
  factors : ∃ block numbers, files.FirstBlock path block ∧
    block.contents = (Declaration.twoFactors numbers).form.encode ∧
    key.factors = [numbers.p, numbers.q]
  odd : ∀ factor ∈ key.factors, factor % 2 = 1
  large : ∀ factor ∈ key.factors, 3 ≤ factor
  difference : ∀ factor ∈ key.factors, Checked.difference factor 1 = .ok (factor - 1)
  remainder : ∀ factor ∈ key.factors,
    Checked.remainder key.exponent (factor - 1) = .ok (key.exponent % (factor - 1))
  /-- The record comes out whatever has been worked out before. -/
  record : ∀ precomputed coefficient, ∃ record,
    { KeyParts.ofKey key with precomputed, coefficient : KeyParts }.record = .ok record
  exported : ∃ reader text record,
    (loadStore files path purpose .privateKey).outcome = .ok reader ∧
    (∀ later version, (reader.key later version).outcome = .ok text) ∧
    Recorded.parse RsaPrivateRecord text = .ok record ∧
    HoldsFactor record.primeP record.primeExponentP key.p ∧
    HoldsFactor record.primeQ record.primeExponentQ key.q

theorem loadsSafely_of_load (loaded : (loadPrivateKey files path).outcome = .ok key) :
    LoadsSafely files path purpose key where
  factors := exists_twoFactors_of_load loaded
  odd _ member := PrivateKey.odd_of_mem_factors member
  large _ member := PrivateKey.three_le_of_mem_factors member
  difference _ member :=
    if_neg (Nat.not_lt.mpr (PrivateKey.one_lt_of_mem_factors member).le)
  remainder _ member :=
    if_neg (Nat.sub_ne_zero_of_lt (PrivateKey.one_lt_of_mem_factors member))
  record precomputed coefficient := ⟨_, KeyParts.record_of_key key precomputed coefficient⟩
  exported :=
    ⟨.ofPrivateKey key purpose, Recorded.serialize (RsaPrivateRecord.ofKey key), .ofKey key,
      outcome_loadStore_of_load loaded,
      fun later version => Reader.outcome_key_ofPrivateKey later version purpose key,
      Recorded.parse_serialize RsaPrivateRecord.isFaithful_shape _,
      holdsFactor_of_mem_factors Precomputed.exponentP key.p_mem_factors rfl,
      holdsFactor_of_mem_factors Precomputed.exponentQ key.q_mem_factors rfl⟩

/-- Loading a private key and importing it both fail, with a fault of the key. -/
structure RefusesKey (files : FileAccess) (path : String) (purpose : KeyPurpose)
    (fault : Rsa.Fault) : Prop where
  load : (loadPrivateKey files path).outcome = .error (.rsa fault)
  store : (loadStore files path purpose .privateKey).outcome = .error (.rsa fault)
  kind : (StoreFault.rsa fault).kind = .parsing

theorem refusesKey_of_flawed {declaration : Declaration} {block : Pem.Block}
    (flawed : declaration.IsFlawed) (first : files.FirstBlock path block)
    (contents : block.contents = declaration.form.encode) :
    RefusesKey files path purpose
      (if block.contents.length < Der.lengthLimit then .privateNumbers else .privateForm) := by
  have read : (readBlock files path).outcome = .ok declaration.form.encode := by
    rw [readBlock_of_firstBlock first, contents]
  have load : (loadPrivateKey files path).outcome = .error
      (.rsa (if block.contents.length < Der.lengthLimit then .privateNumbers
        else .privateForm)) := by
    rw [outcome_loadPrivateKey_of_readBlock read, decodePrivateKey, flawed.decode_form, contents]
  refine ⟨load, ?_, rfl⟩
  rw [loadStore, Traced.outcome_bind, load]
  rfl

/-- Every step of an import of a private key can be carried out, so that the import ends in a store
or in a fault. A key that is loaded has two factors, both odd and at least three, with exponents
between one and the factor less two. Flawed declarations are refused with a fault of the key. -/
theorem private_import_never_breaks_down (files : FileAccess) (path : String)
    (purpose : KeyPurpose) :
    Checked.loadStore files path purpose =
        .ok (loadStore files path purpose .privateKey).outcome ∧
      (∀ key, (loadPrivateKey files path).outcome = .ok key →
        LoadsSafely files path purpose key) ∧
      ∀ declaration block, Declaration.IsFlawed declaration → files.FirstBlock path block →
        block.contents = declaration.form.encode →
          RefusesKey files path purpose
            (if block.contents.length < Der.lengthLimit then .privateNumbers
              else .privateForm) := by
  refine ⟨Checked.loadStore_eq_ok files path purpose, ?_, ?_⟩
  · intro key loaded
    exact loadsSafely_of_load loaded
  · intro declaration block flawed first contents
    exact refusesKey_of_flawed flawed first contents

def oneAndFifteen : Declaration :=
  .twoFactors ⟨15, 3, 3, 1, 15, 0, 3, 0⟩

/-- The declaration of the factors three, five and seven, whose numbers belong together. -/
def threeFiveAndSeven : Declaration :=
  .moreFactors ⟨105, 5, 5, 3, 5, 1, 1, 2⟩ [⟨7, 5, 1⟩]

theorem private_import_of_three_and_five :
    (∃ files : FileAccess, (loadPrivateKey files "key.pem").outcome = .ok keyOfThreeAndFive ∧
      LoadsSafely files "key.pem" .signAndVerify keyOfThreeAndFive) ∧
    ∀ declaration ∈ [oneAndFifteen, threeFiveAndSeven], declaration.IsFlawed ∧
      ∃ (files : FileAccess) (block : Pem.Block), files.FirstBlock "key.pem" block ∧
        block.contents = declaration.form.encode ∧
        RefusesKey files "key.pem" .signAndVerify .privateNumbers := by
  constructor
  · have short : (keyOfThreeAndFive.form 1 3 2).encode.length < Der.lengthLimit := by
      decide +kernel
    have loaded : (loadPrivateKey (.holding (keyOfThreeAndFive.form 1 3 2).encode)
        "key.pem").outcome = .ok keyOfThreeAndFive := by
      rw [outcome_loadPrivateKey (FileAccess.holdsBlock_holding _ _), decodePrivateKey_form,
        if_pos ⟨by decide, by decide, by decide, short⟩]
    exact ⟨_, loaded, (private_import_never_breaks_down _ _ _).2.1 _ loaded⟩
  · intro declaration member
    have short : ∀ declaration ∈ [oneAndFifteen, threeFiveAndSeven],
        declaration.form.encode.length < Der.lengthLimit := by
      decide +kernel
    have flawed : declaration.IsFlawed := by
      simp only [List.mem_cons, List.not_mem_nil, or_false] at member
      rcases member with rfl | rfl
      · exact .smallFactor List.mem_cons_self (Nat.le_refl 1)
      · exact .moreFactors _ _
    have holds := FileAccess.holdsBlock_holding declaration.form.encode "key.pem"
    obtain ⟨block, first, contents⟩ := exists_firstBlock_of_readBlock (outcome_readBlock holds)
    have refuses := (private_import_never_breaks_down _ _ .signAndVerify).2.2
      declaration block flawed first contents
    rw [contents, if_pos (short declaration member)] at refuses
    exact ⟨flawed, _, block, first, contents, refuses⟩

end Importer

end Loading

end KeyStore
