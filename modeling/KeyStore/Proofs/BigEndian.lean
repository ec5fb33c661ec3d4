import KeyStore.Bytes
import Mathlib.Data.List.Induction
import Mathlib.Tactic.Ring

/-!
# Numbers as byte strings

The shortest big-endian form of a number is read back as that number. It starts with a zero byte
only for zero, so the length of the form and the number of binary digits bound each other, and a
byte string that starts with another byte is the form of its number.
-/

namespace KeyStore

namespace Bytes

theorem foldl_toNat (number : Nat) (bytes : Bytes) :
    bytes.foldl (fun number byte => number * 256 + byte.toNat) number =
      number * 256 ^ bytes.length + toNat bytes := by
  induction bytes generalizing number with
  | nil =>
      simp [toNat]
  | cons byte rest inductionHypothesis =>
      rw [toNat, List.foldl_cons, List.foldl_cons, inductionHypothesis, inductionHypothesis,
        List.length_cons]
      ring

theorem toNat_cons (byte : UInt8) (rest : Bytes) :
    toNat (byte :: rest) = byte.toNat * 256 ^ rest.length + toNat rest := by
  rw [toNat, List.foldl_cons, foldl_toNat]
  simp

theorem toNat_append_singleton (bytes : Bytes) (last : UInt8) :
    toNat (bytes ++ [last]) = toNat bytes * 256 + last.toNat := by
  rw [toNat, List.foldl_append]
  rfl

theorem toNat_lt (bytes : Bytes) : toNat bytes < 256 ^ bytes.length := by
  induction bytes with
  | nil =>
      exact Nat.one_pos
  | cons byte rest inductionHypothesis =>
      have bound := byte.toNat_lt
      have step : byte.toNat * 256 ^ rest.length + 256 ^ rest.length ≤
          256 * 256 ^ rest.length := by
        rw [← Nat.succ_mul]
        exact Nat.mul_le_mul_right _ bound
      rw [toNat_cons, List.length_cons, Nat.pow_succ']
      omega

theorem pow_le_toNat {first : UInt8} (rest : Bytes) (nonzero : first ≠ 0) :
    256 ^ rest.length ≤ toNat (first :: rest) := by
  have positive : 1 ≤ first.toNat := by
    rw [Nat.one_le_iff_ne_zero]
    exact fun zero => nonzero (UInt8.toNat_inj.mp zero)
  rw [toNat_cons]
  calc 256 ^ rest.length = 1 * 256 ^ rest.length := (Nat.one_mul _).symm
    _ ≤ first.toNat * 256 ^ rest.length := Nat.mul_le_mul_right _ positive
    _ ≤ first.toNat * 256 ^ rest.length + toNat rest := Nat.le_add_right _ _

theorem toNat_ofNat (number : Nat) : toNat (ofNat number) = number := by
  induction number using Nat.strongRecOn with
  | ind number inductionHypothesis =>
      rw [ofNat]
      split
      · next small =>
          simp only [toNat, List.foldl_cons, List.foldl_nil, Nat.zero_mul, Nat.zero_add]
          exact UInt8.toNat_ofNat_of_lt' small
      · next large =>
          have last : (UInt8.ofNat (number % 256)).toNat = number % 256 :=
            UInt8.toNat_ofNat_of_lt' (Nat.mod_lt number (by decide))
          rw [toNat_append_singleton, inductionHypothesis (number / 256) (by omega), last]
          omega

theorem ofNat_ne_nil (number : Nat) : ofNat number ≠ [] := by
  rw [ofNat]
  split
  · exact List.cons_ne_nil _ _
  · exact List.append_ne_nil_of_right_ne_nil _ (List.cons_ne_nil _ _)

theorem exists_ofNat_eq_cons {number : Nat} (positive : 0 < number) :
    ∃ first rest, ofNat number = first :: rest ∧ first ≠ 0 := by
  induction number using Nat.strongRecOn with
  | ind number inductionHypothesis =>
      rw [ofNat]
      split
      · next small =>
          refine ⟨UInt8.ofNat number, [], rfl, fun zero => ?_⟩
          have value := UInt8.toNat_ofNat_of_lt' (n := number) small
          rw [zero] at value
          exact absurd value (by simpa using positive.ne)
      · next large =>
          obtain ⟨first, rest, form, nonzero⟩ :=
            inductionHypothesis (number / 256) (by omega) (by omega)
          exact ⟨first, rest ++ [UInt8.ofNat (number % 256)], by rw [form, List.cons_append],
            nonzero⟩

/-- A byte string that does not start with a zero byte is the form of its number. -/
theorem ofNat_toNat
    {first : UInt8} (rest : Bytes) (nonzero : first ≠ 0) :
    ofNat (toNat (first :: rest)) = first :: rest := by
  induction rest using List.reverseRecOn with
  | nil =>
      have value : toNat [first] = first.toNat := by
        simp [toNat]
      have small : toNat [first] < 256 := by
        rw [value]
        exact first.toNat_lt
      rw [ofNat, if_pos small, value, UInt8.ofNat_toNat]
  | append_singleton initial last inductionHypothesis =>
      have bound := last.toNat_lt
      have positive : 0 < toNat (first :: initial) :=
        (Nat.pow_pos (by decide)).trans_le (pow_le_toNat initial nonzero)
      rw [← List.cons_append, toNat_append_singleton, ofNat, if_neg (by omega)]
      have quotient : (toNat (first :: initial) * 256 + last.toNat) / 256 =
          toNat (first :: initial) := by
        omega
      have remainder : (toNat (first :: initial) * 256 + last.toNat) % 256 = last.toNat := by
        omega
      rw [quotient, remainder, inductionHypothesis, UInt8.ofNat_toNat]

theorem length_ofNat_le {number width : Nat} (positive : 0 < width)
    (small : number < 256 ^ width) : (ofNat number).length ≤ width := by
  rcases Nat.eq_zero_or_pos number with zero | numberPositive
  · rw [zero, ofNat, if_pos (by decide)]
    exact positive
  · obtain ⟨first, rest, form, nonzero⟩ := exists_ofNat_eq_cons numberPositive
    have lower := pow_le_toNat rest nonzero
    rw [← form, toNat_ofNat] at lower
    rw [form, List.length_cons]
    exact (Nat.pow_lt_pow_iff_right (by decide)).mp (lower.trans_lt small)

end Bytes

theorem bitLength_le_iff {number width : Nat} : bitLength number ≤ width ↔ number < 2 ^ width := by
  unfold bitLength
  split
  · next zero =>
      rw [zero]
      exact ⟨fun _ => Nat.two_pow_pos width, fun _ => Nat.zero_le width⟩
  · next nonzero =>
      exact Nat.log2_lt nonzero

theorem lt_pow_of_bitLength_le
    {number width : Nat} (few : bitLength number ≤ 8 * width) :
    number < 256 ^ width := by
  rw [bitLength_le_iff, Nat.pow_mul] at few
  exact few

theorem bitLength_mul_le (left right : Nat) :
    bitLength (left * right) ≤ bitLength left + bitLength right := by
  have leftBound : left < 2 ^ bitLength left := bitLength_le_iff.mp (Nat.le_refl _)
  have rightBound : right < 2 ^ bitLength right := bitLength_le_iff.mp (Nat.le_refl _)
  rw [bitLength_le_iff, Nat.pow_add]
  exact Nat.mul_lt_mul'' leftBound rightBound

theorem bitLength_toNat_le (bytes : Bytes) : bitLength (Bytes.toNat bytes) ≤ 8 * bytes.length := by
  rw [bitLength_le_iff, Nat.pow_mul]
  exact Bytes.toNat_lt bytes

/-- A number in `rest.length + 1` bytes has more binary digits than the last `rest.length` of them
hold. -/
theorem bitLength_bounds {first : UInt8} (rest : Bytes) (nonzero : first ≠ 0) :
    8 * rest.length < bitLength (Bytes.toNat (first :: rest)) ∧
      bitLength (Bytes.toNat (first :: rest)) ≤ 8 * (rest.length + 1) := by
  constructor
  · rw [← Nat.not_le, bitLength_le_iff, Nat.not_lt, Nat.pow_mul]
    exact Bytes.pow_le_toNat rest nonzero
  · exact bitLength_toNat_le (first :: rest)

end KeyStore
