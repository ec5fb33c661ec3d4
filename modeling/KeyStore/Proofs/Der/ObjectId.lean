import KeyStore.Der.ObjectId
import Mathlib.Tactic.Ring

/-!
# Object identifiers of given numbers

The content of an object identifier follows from its numbers. It is read if it is neither too short
nor too long, and none of its numbers takes too many bytes. Numbers come back as they are, as long
as they fit into 32 bits.
-/

namespace KeyStore.Der

/-- The bytes of a number with seven bits each, all with the high bit set. Zero has none. -/
def leadingBytes (number : Nat) : Bytes :=
  if number = 0 then []
  else leadingBytes (number / 128) ++ [UInt8.ofNat (0x80 + number % 128)]

/-- The shortest row of bytes of a number, of which the last has its high bit clear. -/
def arcBytes (number : Nat) : Bytes :=
  leadingBytes (number / 128) ++ [UInt8.ofNat (number % 128)]

/-- The content of the object identifier of the numbers. The first two share their bytes. -/
def arcsContent (first second : Nat) (others : List Nat) : Bytes :=
  arcBytes (40 * first + second) ++ others.flatMap arcBytes

/-- Two numbers can begin an object identifier. -/
def AreRoots (first second : Nat) : Prop :=
  first ≤ 2 ∧ (first < 2 → second < 40)

instance (first second : Nat) : Decidable (AreRoots first second) :=
  inferInstanceAs (Decidable (_ ∧ _))

/-- A number takes at most four bytes, or five of which the last is below 16. -/
def IsShortArc (number : Nat) : Prop :=
  number < 2 ^ 28 ∨ number < 2 ^ 35 ∧ number % 128 < 16

instance (number : Nat) : Decidable (IsShortArc number) :=
  inferInstanceAs (Decidable (_ ∨ _))

/-- The content of the object identifier of the numbers is read. -/
structure IsReadableId (first second : Nat) (others : List Nat) : Prop where
  long : 3 ≤ (arcsContent first second others).length
  short : (arcsContent first second others).length ≤ 39
  roots : 40 * first + second < 120
  others : ∀ other ∈ others, IsShortArc other

theorem leadingBytes_zero : leadingBytes 0 = [] := by
  rw [leadingBytes, if_pos rfl]

theorem leadingBytes_pos {number : Nat} (positive : number ≠ 0) :
    leadingBytes number =
      leadingBytes (number / 128) ++ [UInt8.ofNat (0x80 + number % 128)] := by
  rw [leadingBytes, if_neg positive]

theorem toNat_leadingByte (number : Nat) :
    (UInt8.ofNat (0x80 + number % 128)).toNat = 0x80 + number % 128 :=
  UInt8.toNat_ofNat_of_lt (show _ < 256 by omega)

theorem toNat_lastByte (number : Nat) : (UInt8.ofNat (number % 128)).toNat = number % 128 :=
  UInt8.toNat_ofNat_of_lt (show _ < 256 by omega)

theorem high_of_mem_leadingBytes (number : Nat) : ∀ byte ∈ leadingBytes number, 0x80 ≤ byte := by
  induction number using Nat.strongRecOn with
  | ind number inductionHypothesis =>
      by_cases zero : number = 0
      · rw [zero, leadingBytes_zero]
        exact fun _ member => absurd member List.not_mem_nil
      · rw [leadingBytes_pos zero]
        intro byte member
        rcases List.mem_append.mp member with leading | last
        · exact inductionHypothesis (number / 128) (by omega) byte leading
        · rw [List.mem_singleton.mp last, UInt8.le_iff_toNat_le, toNat_leadingByte]
          exact Nat.le_add_right _ _

theorem lastByte_low (number : Nat) : UInt8.ofNat (number % 128) < 0x80 := by
  rw [UInt8.lt_iff_toNat_lt, toNat_lastByte]
  exact Nat.mod_lt _ (by decide)

theorem length_leadingBytes_le_iff {number count : Nat} :
    (leadingBytes number).length ≤ count ↔ number < 128 ^ count := by
  induction number using Nat.strongRecOn generalizing count with
  | ind number inductionHypothesis =>
      by_cases zero : number = 0
      · rw [zero, leadingBytes_zero]
        exact iff_of_true (Nat.zero_le _) (Nat.pow_pos (by decide))
      · rw [leadingBytes_pos zero, List.length_append, List.length_singleton]
        cases count with
        | zero => omega
        | succ count =>
            rw [Nat.add_le_add_iff_right, inductionHypothesis (number / 128) (by omega),
              Nat.pow_succ]
            exact Nat.div_lt_iff_lt_mul (by decide)

def addSeptet (number : Nat) (byte : UInt8) : Nat :=
  number * 128 + byte.toNat % 128

theorem foldl_leadingBytes (number : Nat) : (leadingBytes number).foldl addSeptet 0 = number := by
  induction number using Nat.strongRecOn with
  | ind number inductionHypothesis =>
      by_cases zero : number = 0
      · rw [zero, leadingBytes_zero]
        rfl
      · rw [leadingBytes_pos zero, List.foldl_append, inductionHypothesis (number / 128) (by omega),
          List.foldl_cons, List.foldl_nil, addSeptet, toNat_leadingByte]
        omega

theorem foldl_arcBytes (number : Nat) : (arcBytes number).foldl addSeptet 0 = number := by
  rw [arcBytes, List.foldl_append, foldl_leadingBytes, List.foldl_cons, List.foldl_nil, addSeptet,
    toNat_lastByte]
  omega

theorem arcNumber_arcBytes (number : Nat) : arcNumber (arcBytes number) = number % 2 ^ 32 :=
  congrArg (· % Nat.pow 2 32) (foldl_arcBytes number)

theorem arcBytes_ne_nil (number : Nat) : arcBytes number ≠ [] :=
  List.append_ne_nil_of_right_ne_nil _ (List.cons_ne_nil _ _)

section Rows

variable {leading : Bytes} {last : UInt8}

/-- The bytes of a number are split off unless there are too many of them. -/
theorem takeArc_of_leading (high : ∀ byte ∈ leading, 0x80 ≤ byte) (low : last < 0x80)
    {taken : Nat} (few : taken ≤ 4) (rest : Bytes) :
    takeArc taken (leading ++ last :: rest) =
      if taken + leading.length < 4 ∨ taken + leading.length = 4 ∧ last < 0x10 then
        some (leading ++ [last], rest)
      else
        none := by
  induction leading generalizing taken with
  | nil =>
      rw [List.nil_append, takeArc, List.length_nil]
      by_cases tooLarge : 4 ≤ taken ∧ 0x10 ≤ last
      · rw [if_pos tooLarge, if_neg]
        rintro (fewer | ⟨_, small⟩)
        · omega
        · exact UInt8.not_lt.mpr tooLarge.2 small
      · have fits : taken + 0 < 4 ∨ taken + 0 = 4 ∧ last < 0x10 := by
          by_cases full : 4 ≤ taken
          · exact .inr ⟨by omega, UInt8.not_le.mp fun large => tooLarge ⟨full, large⟩⟩
          · exact .inl (by omega)
        rw [if_neg tooLarge, if_pos low, if_pos fits]
        rfl
  | cons byte leading inductionHypothesis =>
      obtain ⟨byteHigh, othersHigh⟩ := List.forall_mem_cons.mp high
      rw [List.cons_append, takeArc, List.length_cons]
      -- A high byte is refused from the fifth place on, so the row has to end there.
      by_cases full : 4 ≤ taken
      · have large : (0x10 : UInt8) ≤ byte := UInt8.le_trans (by decide) byteHigh
        rw [if_pos ⟨full, large⟩, if_neg]
        rintro (fewer | ⟨same, _⟩)
        · omega
        · omega
      · have sameCount : taken + 1 + leading.length = taken + (leading.length + 1) := by
          omega
        rw [if_neg fun both => full both.1, if_neg (UInt8.not_lt.mpr byteHigh),
          inductionHypothesis othersHigh (by omega), sameCount]
        by_cases fits : taken + (leading.length + 1) < 4 ∨
            taken + (leading.length + 1) = 4 ∧ last < 0x10
        · rw [if_pos fits, if_pos fits]
          rfl
        · rw [if_neg fits, if_neg fits]

end Rows

theorem takeArc_arcBytes (number : Nat) (rest : Bytes) :
    takeArc 0 (arcBytes number ++ rest) =
      if IsShortArc number then some (arcBytes number, rest) else none := by
  have three := @length_leadingBytes_le_iff (number / 128) 3
  have four := @length_leadingBytes_le_iff (number / 128) 4
  have low : UInt8.ofNat (number % 128) < 0x10 ↔ number % 128 < 16 := by
    rw [UInt8.lt_iff_toNat_lt, toNat_lastByte]
    rfl
  have same : (0 + (leadingBytes (number / 128)).length < 4 ∨
      0 + (leadingBytes (number / 128)).length = 4 ∧ UInt8.ofNat (number % 128) < 0x10) ↔
      IsShortArc number := by
    rw [low, IsShortArc]
    omega
  rw [arcBytes, List.append_assoc, List.singleton_append,
    takeArc_of_leading (high_of_mem_leadingBytes _) (lastByte_low number) (Nat.zero_le 4)]
  simp only [same]

/-! ## Telling numbers apart -/

theorem takeWhile_arcBytes_append (number : Nat) (rest : Bytes) :
    (arcBytes number ++ rest).takeWhile (0x80 ≤ ·) = leadingBytes (number / 128) := by
  have high : ∀ byte ∈ leadingBytes (number / 128), decide (0x80 ≤ byte) = true := by
    intro byte member
    exact decide_eq_true (high_of_mem_leadingBytes _ byte member)
  have low : ¬decide (0x80 ≤ UInt8.ofNat (number % 128)) = true := by
    rw [decide_eq_true_eq, UInt8.not_le]
    exact lastByte_low number
  have nothing : (UInt8.ofNat (number % 128) :: rest).takeWhile (0x80 ≤ ·) = [] :=
    List.takeWhile_cons_of_neg low
  rw [arcBytes, List.append_assoc, List.takeWhile_append_of_pos high, List.singleton_append,
    nothing, List.append_nil]

theorem arcBytes_append_inj {left right : Nat} {leftRest rightRest : Bytes}
    (same : arcBytes left ++ leftRest = arcBytes right ++ rightRest) :
    left = right ∧ leftRest = rightRest := by
  have sameLeading : leadingBytes (left / 128) = leadingBytes (right / 128) := by
    rw [← takeWhile_arcBytes_append left leftRest, same, takeWhile_arcBytes_append]
  have sameLength : (arcBytes left).length = (arcBytes right).length := by
    rw [arcBytes, arcBytes, sameLeading, List.length_append, List.length_append]
    rfl
  obtain ⟨sameBytes, sameRest⟩ := List.append_inj same sameLength
  refine ⟨?_, sameRest⟩
  rw [← foldl_arcBytes left, sameBytes, foldl_arcBytes]

theorem flatMap_arcBytes_injective : (List.flatMap arcBytes).Injective := by
  intro left right same
  induction left generalizing right with
  | nil =>
      cases right with
      | nil => rfl
      | cons number others =>
          rw [List.flatMap_nil, List.flatMap_cons] at same
          exact absurd (List.append_eq_nil_iff.mp same.symm).1 (arcBytes_ne_nil number)
  | cons number others inductionHypothesis =>
      cases right with
      | nil =>
          rw [List.flatMap_nil, List.flatMap_cons] at same
          exact absurd (List.append_eq_nil_iff.mp same).1 (arcBytes_ne_nil number)
      | cons other behind =>
          rw [List.flatMap_cons, List.flatMap_cons] at same
          obtain ⟨rfl, sameRest⟩ := arcBytes_append_inj same
          rw [inductionHypothesis sameRest]

theorem arcsContent_inj {first second otherFirst otherSecond : Nat} {others otherOthers : List Nat}
    (roots : AreRoots first second) (otherRoots : AreRoots otherFirst otherSecond)
    (same : arcsContent first second others = arcsContent otherFirst otherSecond otherOthers) :
    first = otherFirst ∧ second = otherSecond ∧ others = otherOthers := by
  obtain ⟨sameRoots, sameRest⟩ := arcBytes_append_inj same
  obtain ⟨few, below⟩ := roots
  obtain ⟨otherFew, otherBelow⟩ := otherRoots
  refine ⟨?_, ?_, flatMap_arcBytes_injective sameRest⟩
  · omega
  · omega

theorem arcs?_nil : arcs? [] = some [] := by
  rw [arcs?, if_pos rfl]

theorem arcs?_arcBytes_append {number : Nat} (short : IsShortArc number) (rest : Bytes) :
    arcs? (arcBytes number ++ rest) = (arcs? rest).map (number % 2 ^ 32 :: ·) := by
  have nonempty : arcBytes number ++ rest ≠ [] := List.append_ne_nil_of_left_ne_nil
    (arcBytes_ne_nil number) rest
  have taken := takeArc_arcBytes number rest
  rw [if_pos short] at taken
  rw [arcs?, if_neg nonempty]
  split
  · next missing =>
      rw [taken] at missing
      contradiction
  · next arc behind found =>
      rw [taken] at found
      obtain ⟨rfl, rfl⟩ := Prod.mk.inj (Option.some.inj found)
      rw [arcNumber_arcBytes]
      cases arcs? rest with
      | none => rfl
      | some others => rfl

theorem arcs?_arcBytes_append_eq_none {number : Nat} (long : ¬IsShortArc number) (rest : Bytes) :
    arcs? (arcBytes number ++ rest) = none := by
  have nonempty : arcBytes number ++ rest ≠ [] := List.append_ne_nil_of_left_ne_nil
    (arcBytes_ne_nil number) rest
  have taken := takeArc_arcBytes number rest
  rw [if_neg long] at taken
  rw [arcs?, if_neg nonempty]
  split
  · rfl
  · next arc behind found =>
      rw [taken] at found
      contradiction

/-- A row of numbers is read, modulo `2 ^ 32`, if all of them are short. -/
theorem arcs?_flatMap (numbers : List Nat) :
    arcs? (numbers.flatMap arcBytes) =
      if ∀ number ∈ numbers, IsShortArc number then some (numbers.map (· % 2 ^ 32)) else none := by
  induction numbers with
  | nil =>
      rw [List.flatMap_nil, arcs?_nil, if_pos nofun]
      rfl
  | cons number others inductionHypothesis =>
      rw [List.flatMap_cons]
      simp only [List.forall_mem_cons]
      by_cases short : IsShortArc number
      · rw [arcs?_arcBytes_append short, inductionHypothesis]
        by_cases allShort : ∀ other ∈ others, IsShortArc other
        · rw [if_pos allShort, if_pos ⟨short, allShort⟩]
          rfl
        · rw [if_neg allShort, if_neg fun both => allShort both.2]
          rfl
      · rw [arcs?_arcBytes_append_eq_none short, if_neg fun both => short both.1]

/-! ## Reading object identifiers -/

section Identifiers

variable {first second : Nat} {others : List Nat}

theorem arcBytes_of_small {number : Nat} (small : number < 128) :
    arcBytes number = [UInt8.ofNat number] := by
  rw [arcBytes, Nat.div_eq_of_lt small, leadingBytes_zero, Nat.mod_eq_of_lt small]
  rfl

theorem exists_high_arcBytes {number : Nat} (large : 128 ≤ number) :
    ∃ byte rest, arcBytes number = byte :: rest ∧ 0x80 ≤ byte := by
  have some : leadingBytes (number / 128) ≠ [] := by
    intro nothing
    have none := length_leadingBytes_le_iff.mp (Nat.le_of_eq (congrArg List.length nothing))
    rw [List.length_nil, Nat.pow_zero] at none
    omega
  obtain ⟨byte, rest, form⟩ := List.exists_cons_of_ne_nil some
  refine ⟨byte, rest ++ [UInt8.ofNat (number % 128)], ?_, ?_⟩
  · rw [arcBytes, form]
    rfl
  · apply high_of_mem_leadingBytes (number / 128)
    rw [form]
    exact List.mem_cons_self

theorem roots_of_small (roots : AreRoots first second) (small : 40 * first + second < 120) :
    (40 * first + second) / 40 = first ∧ (40 * first + second) % 40 = second := by
  obtain ⟨few, below⟩ := roots
  have second_lt : second < 40 := by
    by_cases fewer : first < 2
    · exact below fewer
    · omega
  omega

/-- The first two numbers come back from the first byte, the others from their rows. -/
theorem objectIdArcs?_of_readable (roots : AreRoots first second)
    (readable : IsReadableId first second others) :
    objectIdArcs? (arcsContent first second others) =
      some (first :: second :: others.map (· % 2 ^ 32)) := by
  obtain ⟨long, short, small, shortOthers⟩ := readable
  obtain ⟨isFirst, isSecond⟩ := roots_of_small roots small
  have byte : (UInt8.ofNat (40 * first + second)).toNat = 40 * first + second :=
    UInt8.toNat_ofNat_of_lt (show _ < 256 by omega)
  have below : UInt8.ofNat (40 * first + second) < 120 := by
    rw [UInt8.lt_iff_toNat_lt, byte]
    exact small
  rw [arcsContent, arcBytes_of_small (by omega), List.singleton_append] at long short ⊢
  rw [objectIdArcs?, if_pos ⟨long, short, below⟩, arcs?_flatMap, if_pos shortOthers]
  simp only [byte, isFirst, isSecond]

/-- The first byte is too large if the first two numbers are, whether or not they take it alone. -/
theorem exists_large_arcsContent (large : ¬40 * first + second < 120) (others : List Nat) :
    ∃ byte rest, arcsContent first second others = byte :: rest ∧ ¬byte < 120 := by
  by_cases single : 40 * first + second < 128
  · have byte : (UInt8.ofNat (40 * first + second)).toNat = 40 * first + second :=
      UInt8.toNat_ofNat_of_lt (show _ < 256 by omega)
    refine ⟨UInt8.ofNat (40 * first + second), others.flatMap arcBytes, ?_, ?_⟩
    · rw [arcsContent, arcBytes_of_small single, List.singleton_append]
    · rw [UInt8.lt_iff_toNat_lt, byte]
      exact large
  · obtain ⟨byte, rest, form, high⟩ := exists_high_arcBytes (Nat.not_lt.mp single)
    refine ⟨byte, rest ++ others.flatMap arcBytes, ?_, ?_⟩
    · rw [arcsContent, form]
      rfl
    · exact UInt8.not_lt.mpr (UInt8.le_trans (by decide) high)

theorem objectIdArcs?_of_not_readable (refused : ¬IsReadableId first second others) :
    objectIdArcs? (arcsContent first second others) = none := by
  by_cases small : 40 * first + second < 120
  · have content : arcsContent first second others =
        UInt8.ofNat (40 * first + second) :: others.flatMap arcBytes := by
      rw [arcsContent, arcBytes_of_small (by omega), List.singleton_append]
    have lengths : (others.flatMap arcBytes).length + 1 =
        (arcsContent first second others).length := by
      rw [content, List.length_cons]
    rw [content, objectIdArcs?]
    split
    · next fits =>
        rw [arcs?_flatMap, if_neg]
        intro shortOthers
        rw [lengths] at fits
        exact refused ⟨fits.1, fits.2.1, small, shortOthers⟩
    · rfl
  · obtain ⟨byte, rest, content, large⟩ := exists_large_arcsContent small others
    rw [content, objectIdArcs?, if_neg fun fits => large fits.2.2]

end Identifiers

namespace ObjectId

section Numbers

variable {identifier : ObjectId} {first second : Nat} {others : List Nat}

theorem arcs_of_content (roots : AreRoots first second)
    (content : identifier.content = arcsContent first second others) :
    identifier.arcs = first :: second :: others.map (· % 2 ^ 32) := by
  have arcs := identifier.arcs_eq
  rw [content] at arcs
  by_cases readable : IsReadableId first second others
  · rw [objectIdArcs?_of_readable roots readable] at arcs
    exact (Option.some.inj arcs).symm
  · rw [objectIdArcs?_of_not_readable readable] at arcs
    contradiction

/-- The numbers that can be read are those of the object identifiers that there are. -/
theorem exists_content_iff (roots : AreRoots first second) :
    (∃ identifier : ObjectId, identifier.content = arcsContent first second others) ↔
      IsReadableId first second others := by
  constructor
  · rintro ⟨identifier, content⟩
    by_contra refused
    have arcs := identifier.arcs_eq
    rw [content, objectIdArcs?_of_not_readable refused] at arcs
    contradiction
  · intro readable
    exact ⟨⟨_, _, objectIdArcs?_of_readable roots readable⟩, rfl⟩

/-- The numbers are written modulo `2 ^ 32`, apart from the first two, which are small. -/
theorem text_of_content (roots : AreRoots first second)
    (content : identifier.content = arcsContent first second others) :
    identifier.text =
      ".".intercalate ((first :: second :: others.map (· % 2 ^ 32)).map toString) := by
  rw [text, arcs_of_content roots content]

theorem map_mod_of_small (small : ∀ other ∈ others, other < 2 ^ 32) :
    others.map (· % 2 ^ 32) = others := by
  rw [List.map_congr_left fun other member => Nat.mod_eq_of_lt (small other member), List.map_id']

end Numbers

theorem content_rsaEncryption :
    rsaEncryption.content = arcsContent 1 2 [840, 113549, 1, 1, 1] := by
  decide +kernel

end ObjectId

end KeyStore.Der
