import KeyStore.Digest.Sha1
import KeyStore.Proofs.BigEndian
import Mathlib.Data.Nat.Find

/-!
# The digest by its rules

The digest of a message once more, by the equations that define it: the padded message is a row of
blocks of big-endian words, the words of a schedule obey a recurrence, and eighty steps lead from
one chain value to the next. The digest that is computed in parts obeys these rules for messages of
every length, and a message may be taken up in two parts at every block boundary.
-/

namespace KeyStore.Sha1

theorem exists_fill (length : Nat) : ∃ count, (length + 1 + count) % 64 = 56 :=
  ⟨(119 - length % 64) % 64, by omega⟩

/-- The smallest number of zero bytes that leaves eight bytes up to a block boundary, behind a
message of `length` bytes and one more. -/
def fill (length : Nat) : Nat :=
  Nat.find (exists_fill length)

/-- The message, a one bit, as many zero bits as are needed, and its length in bits. -/
def padded (message : Bytes) : Bytes :=
  message ++ 0x80 :: List.replicate (fill message.length) 0 ++
    Bytes.ofNatWidth 8 (8 * message.length)

/-- Block `index` of a padded message. -/
def blockAt (bytes : Bytes) (index : Nat) : Bytes :=
  (bytes.drop (64 * index)).take 64

/-- Word `index` of a block, the big-endian number of four bytes. -/
def wordAt (block : Bytes) (index : Nat) : UInt32 :=
  UInt32.ofNat (Bytes.toNat ((block.drop (4 * index)).take 4))

/-- Word `index` of the schedule of a block. -/
def scheduleWord (block : Bytes) (index : Nat) : UInt32 :=
  if index < 16 then
    wordAt block index
  else
    rotateLeft
      (scheduleWord block (index - 3) ^^^ scheduleWord block (index - 8) ^^^
        scheduleWord block (index - 14) ^^^ scheduleWord block (index - 16)) 1

/-- The function of step `index`: choice, parity, majority, parity, as sums of bits. -/
def mixRule (index : Nat) (b c d : UInt32) : UInt32 :=
  if index ≤ 19 then (b &&& c) ^^^ (~~~b &&& d)
  else if index ≤ 39 then b ^^^ c ^^^ d
  else if index ≤ 59 then (b &&& c) ^^^ (b &&& d) ^^^ (c &&& d)
  else b ^^^ c ^^^ d

/-- The state after the first `count` steps over a block. -/
def stateAfter (block : Bytes) (start : State) : (count : Nat) → State
  | 0 => start
  | index + 1 =>
      let state := stateAfter block start index
      { a := rotateLeft state.a 5 + mixRule index state.b state.c state.d + state.e +
          constant index + scheduleWord block index
        b := state.a
        c := rotateLeft state.b 30
        d := state.c
        e := state.d }

/-- The chain value behind the first `count` blocks of a padded message. -/
def chainValue (bytes : Bytes) : (count : Nat) → State
  | 0 => .initial
  | index + 1 =>
      let value := chainValue bytes index
      value.add (stateAfter (blockAt bytes index) value 80)

/-- The digest by the rules: the five words of the last chain value. -/
def digestRule (message : Bytes) : Bytes :=
  let value := chainValue (padded message) ((padded message).length / 64)
  [value.a, value.b, value.c, value.d, value.e].flatMap fun word =>
    Bytes.ofNatWidth 4 word.toNat

theorem toNat_shiftLeft_byte (byte : UInt8) {count : UInt32} (small : count.toNat ≤ 24) :
    (byte.toUInt32 <<< count).toNat = 2 ^ count.toNat * byte.toNat := by
  have bound : 2 ^ count.toNat * byte.toNat < 2 ^ 32 :=
    calc 2 ^ count.toNat * byte.toNat < 2 ^ count.toNat * 2 ^ 8 :=
          Nat.mul_lt_mul_of_pos_left byte.toNat_lt (Nat.two_pow_pos _)
      _ ≤ 2 ^ 24 * 2 ^ 8 := Nat.mul_le_mul_right _ (Nat.pow_le_pow_right (by decide) small)
  have unreduced : count.toNat % 32 = count.toNat := Nat.mod_eq_of_lt (by omega)
  rw [UInt32.toNat_shiftLeft, unreduced, Nat.shiftLeft_eq, UInt8.toNat_toUInt32, Nat.mul_comm,
    Nat.mod_eq_of_lt bound]

/-- The bits of the four bytes do not overlap, so joining them adds them up. -/
theorem toNat_wordOfBytes (a b c d : UInt8) :
    (wordOfBytes a b c d).toNat = Bytes.toNat [a, b, c, d] := by
  have boundB := b.toNat_lt
  have boundC := c.toNat_lt
  have boundD := d.toNat_lt
  have low := Nat.two_pow_add_eq_or_of_lt (i := 8) boundD c.toNat
  have middle := Nat.two_pow_add_eq_or_of_lt (i := 16) (b := 2 ^ 8 * c.toNat + d.toNat)
    (by omega) b.toNat
  have high := Nat.two_pow_add_eq_or_of_lt (i := 24)
    (b := 2 ^ 16 * b.toNat + (2 ^ 8 * c.toNat + d.toNat)) (by omega) a.toNat
  have value : Bytes.toNat [a, b, c, d] =
      2 ^ 24 * a.toNat + (2 ^ 16 * b.toNat + (2 ^ 8 * c.toNat + d.toNat)) := by
    simp only [Bytes.toNat, List.foldl_cons, List.foldl_nil]
    omega
  rw [value, high, middle, low, wordOfBytes]
  simp only [UInt32.toNat_or, Nat.or_assoc, UInt8.toNat_toUInt32]
  rw [toNat_shiftLeft_byte a (by decide), toNat_shiftLeft_byte b (by decide),
    toNat_shiftLeft_byte c (by decide)]
  rfl

theorem wordBytes_eq (word : UInt32) : wordBytes word = Bytes.ofNatWidth 4 word.toNat := by
  simp only [wordBytes, Bytes.ofNatWidth, List.nil_append, List.cons_append, List.cons.injEq,
    and_true, ← UInt8.toNat_inj, UInt32.toNat_toUInt8, UInt32.toNat_shiftRight]
  simp only [Nat.shiftRight_eq_div_pow, UInt8.toNat_ofNat', UInt32.reduceToNat, Nat.reduceMod,
    Nat.reducePow]
  omega

theorem wordAt_zero (a b c d : UInt8) (rest : Bytes) :
    wordAt (a :: b :: c :: d :: rest) 0 = wordOfBytes a b c d := by
  have bytes : ((a :: b :: c :: d :: rest).drop (4 * 0)).take 4 = [a, b, c, d] := rfl
  rw [wordAt, bytes, ← toNat_wordOfBytes, UInt32.ofNat_toNat]

theorem words_eq_map (count : Nat) {bytes : Bytes} (length : bytes.length = 4 * count) :
    words bytes = (List.range count).map (wordAt bytes) := by
  induction count generalizing bytes with
  | zero =>
      rw [List.length_eq_zero_iff.mp length]
      rfl
  | succ count inductionHypothesis =>
      match bytes, length with
      | a :: b :: c :: d :: rest, length =>
          have shorter : rest.length = 4 * count := by
            simp only [List.length_cons] at length
            omega
          rw [words, inductionHypothesis shorter, List.range_succ_eq_map, List.map_cons,
            List.map_map, wordAt_zero]
          rfl

theorem getD_reverse_map_range (f : Nat → UInt32) {count back : Nat} (small : back < count) :
    ((List.range count).map f).reverse.getD back 0 = f (count - 1 - back) := by
  have inside : back < ((List.range count).map f).reverse.length := by
    simpa using small
  rw [← List.getElem_eq_getD (h := inside) 0]
  simp

theorem extend_map_range (block : Bytes) {count : Nat} (enough : 16 ≤ count) :
    extend ((List.range count).map (scheduleWord block)).reverse =
      ((List.range (count + 1)).map (scheduleWord block)).reverse := by
  have rule : scheduleWord block count = rotateLeft
      (scheduleWord block (count - 3) ^^^ scheduleWord block (count - 8) ^^^
        scheduleWord block (count - 14) ^^^ scheduleWord block (count - 16)) 1 := by
    rw [scheduleWord, if_neg (Nat.not_lt.mpr enough)]
  rw [List.range_succ, List.map_append, List.map_singleton, List.reverse_append,
    List.reverse_singleton, List.singleton_append, rule, extend]
  rw [getD_reverse_map_range _ (by omega), getD_reverse_map_range _ (by omega),
    getD_reverse_map_range _ (by omega), getD_reverse_map_range _ (by omega)]
  rfl

theorem repeat_extend (block : Bytes) (count : Nat) :
    Nat.repeat extend count ((List.range 16).map (scheduleWord block)).reverse =
      ((List.range (16 + count)).map (scheduleWord block)).reverse := by
  induction count with
  | zero => rfl
  | succ count inductionHypothesis =>
      rw [Nat.repeat, inductionHypothesis, extend_map_range block (Nat.le_add_right 16 count)]
      rfl

theorem schedule_eq_map {block : Bytes} (length : block.length = 64) :
    schedule (words block) = (List.range 80).map (scheduleWord block) := by
  have first : words block = (List.range 16).map (scheduleWord block) := by
    rw [words_eq_map 16 length]
    apply List.map_congr_left
    intro index member
    rw [scheduleWord, if_pos (List.mem_range.mp member)]
  rw [schedule, first, repeat_extend, List.reverse_reverse]

theorem choice_eq_xor (b c d : UInt32) :
    (b &&& c) ||| (~~~b &&& d) = (b &&& c) ^^^ (~~~b &&& d) := by
  rw [← UInt32.toBitVec_inj]
  ext index small
  simp only [UInt32.toBitVec_or, UInt32.toBitVec_xor, UInt32.toBitVec_and, UInt32.toBitVec_not,
    BitVec.getElem_or, BitVec.getElem_xor, BitVec.getElem_and, BitVec.getElem_not]
  cases b.toBitVec[index] <;> simp

theorem majority_eq_xor (b c d : UInt32) :
    (b &&& c) ||| (b &&& d) ||| (c &&& d) = (b &&& c) ^^^ (b &&& d) ^^^ (c &&& d) := by
  rw [← UInt32.toBitVec_inj]
  ext index small
  simp only [UInt32.toBitVec_or, UInt32.toBitVec_xor, UInt32.toBitVec_and,
    BitVec.getElem_or, BitVec.getElem_xor, BitVec.getElem_and]
  cases b.toBitVec[index] <;> cases c.toBitVec[index] <;> simp

theorem mix_eq_mixRule (index : Nat) (b c d : UInt32) : mix index b c d = mixRule index b c d := by
  simp only [mix, mixRule, choice_eq_xor, majority_eq_xor, Nat.lt_succ_iff]

/-- Steps over the words of a schedule from the state that has been reached. -/
theorem steps_map_range' (block : Bytes) (start : State) (reached count : Nat) :
    steps reached ((List.range' reached count).map (scheduleWord block))
        (stateAfter block start reached) = stateAfter block start (reached + count) := by
  induction count generalizing reached with
  | zero => rfl
  | succ count inductionHypothesis =>
      have next : step reached (scheduleWord block reached) (stateAfter block start reached) =
          stateAfter block start (reached + 1) := by
        rw [step, mix_eq_mixRule]
        rfl
      rw [List.range'_succ, List.map_cons, steps, next, inductionHypothesis, Nat.add_right_comm,
        Nat.add_assoc]

theorem compress_eq {block : Bytes} (length : block.length = 64) (state : State) :
    compress state block = state.add (stateAfter block state 80) := by
  rw [compress, schedule_eq_map length, List.range_eq_range']
  exact congrArg state.add (steps_map_range' block state 0 80)

theorem absorbBlocks_chainValue (bytes : Bytes) (reached count : Nat)
    (long : 64 * (reached + count) ≤ bytes.length) :
    absorbBlocks count (chainValue bytes reached) (bytes.drop (64 * reached)) =
      chainValue bytes (reached + count) := by
  induction count generalizing reached with
  | zero => rfl
  | succ count inductionHypothesis =>
      have full : (blockAt bytes reached).length = 64 := by
        rw [blockAt, List.length_take, List.length_drop]
        omega
      have next : compress (chainValue bytes reached) (blockAt bytes reached) =
          chainValue bytes (reached + 1) := by
        rw [compress_eq full]
        rfl
      have later := inductionHypothesis (reached + 1) (by omega)
      rw [absorbBlocks, blockLength, ← blockAt, next, List.drop_drop, ← Nat.mul_succ, later]
      congr 1
      omega

theorem fill_eq (length : Nat) : fill length = (119 - length % 64) % 64 := by
  rw [fill, Nat.find_eq_iff]
  constructor
  · omega
  · intro count smaller
    omega

theorem append_padding (message : Bytes) :
    message ++ padding message.length = padded message := by
  rw [padding, padded, fill_eq, Nat.mul_comm 8, blockLength]
  simp only [List.cons_append, List.append_assoc]

theorem digest_eq_digestRule (message : Bytes) : digest message = digestRule message := by
  have absorbed := absorbBlocks_chainValue (padded message) 0 ((padded message).length / 64)
    (by omega)
  rw [digest, finish, Nat.zero_add, append_padding, absorb, blockLength]
  rw [Nat.zero_add, Nat.mul_zero, List.drop_zero, chainValue] at absorbed
  rw [absorbed]
  simp only [State.bytes, wordBytes_eq]
  rfl

theorem absorbBlocks_append (first second : Nat) (state : State) {start rest : Bytes}
    (length : start.length = 64 * first) :
    absorbBlocks (first + second) state (start ++ rest) =
      absorbBlocks second (absorbBlocks first state start) rest := by
  induction first generalizing state start with
  | zero =>
      rw [List.length_eq_zero_iff.mp length, Nat.zero_add]
      rfl
  | succ first inductionHypothesis =>
      have enough : blockLength ≤ start.length := by
        rw [length, blockLength]
        omega
      have shorter : (start.drop blockLength).length = 64 * first := by
        rw [List.length_drop, length, blockLength]
        omega
      rw [Nat.add_right_comm, absorbBlocks, absorbBlocks, List.take_append_of_le_length enough,
        List.drop_append_of_le_length enough, inductionHypothesis _ shorter]

/-- What has been taken up to a block boundary stands for the bytes that have been taken up. -/
theorem finish_absorb {start : Bytes} (whole : start.length % 64 = 0) (rest : Bytes) :
    finish start.length (absorb .initial start) rest = digest (start ++ rest) := by
  have length : start.length = 64 * (start.length / 64) := by omega
  have count : (start ++ (rest ++ padding (start.length + rest.length))).length / 64 =
      start.length / 64 + (rest ++ padding (start.length + rest.length)).length / 64 := by
    rw [List.length_append]
    omega
  rw [digest, finish, finish, Nat.zero_add, List.length_append, List.append_assoc, absorb, absorb,
    absorb, blockLength, count, absorbBlocks_append _ _ _ length]

end KeyStore.Sha1
