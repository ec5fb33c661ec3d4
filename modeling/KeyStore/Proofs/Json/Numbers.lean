import KeyStore.Proofs.Json.Grammar

/-!
# Numbers

A natural number that has been written is read back, whatever follows it, and only the decimal
digits of a number are read as that natural number. A number of the grammar is passed over to its
end.
-/

namespace KeyStore.Json

def NoDigitAhead (text : List Char) : Prop :=
  ∀ char ∈ text.head?, isDigit char = false

theorem NoDigitAhead.cons {char : Char} (notDigit : isDigit char = false) (rest : List Char) :
    NoDigitAhead (char :: rest) := by
  intro first member
  rw [List.head?_cons, Option.mem_some_iff] at member
  rw [← member]
  exact notDigit

theorem ne_of_isDigit {char other : Char} (digit : isDigit char = true)
    (notDigit : isDigit other = false) :
    char ≠ other := by
  intro same
  rw [same, notDigit] at digit
  contradiction

theorem notSeparator_of_isDigit {char : Char} (digit : isDigit char = true) :
    isSeparator char = false := by
  simp only [isSeparator, ne_of_isDigit digit (show isDigit ' ' = false by decide),
    ne_of_isDigit digit (show isDigit '\t' = false by decide),
    ne_of_isDigit digit (show isDigit '\n' = false by decide),
    ne_of_isDigit digit (show isDigit '\r' = false by decide), decide_false, Bool.or_self]

theorem IsDelimited.cases {char : Char} {rest : List Char}
    (delimited : IsDelimited (char :: rest)) :
    isDigit char = false ∧ char ≠ '.' ∧ char ≠ 'e' ∧ char ≠ 'E' := by
  have delimits := delimited char (by rw [List.head?_cons, Option.mem_some_iff])
  simp only [isSeparator, Bool.or_eq_true, decide_eq_true_eq] at delimits
  rcases delimits with (((rfl | rfl) | rfl) | rfl) | rfl | rfl | rfl <;> decide

theorem IsDelimited.noDigitAhead {rest : List Char} (delimited : IsDelimited rest) :
    NoDigitAhead rest := by
  cases rest with
  | nil => exact nofun
  | cons char behind => exact .cons delimited.cases.1 behind

theorem dropWhile_append_of_digits {digits rest : List Char}
    (allDigits : ∀ char ∈ digits, isDigit char = true) (noDigit : NoDigitAhead rest) :
    (digits ++ rest).dropWhile isDigit = rest := by
  rw [List.dropWhile_append_of_pos allDigits]
  cases rest with
  | nil => rfl
  | cons char behind =>
      have notDigit := noDigit char (by rw [List.head?_cons, Option.mem_some_iff])
      rw [List.dropWhile_cons_of_neg (by simp [notDigit])]

theorem takeWhile_append_of_digits {digits rest : List Char}
    (allDigits : ∀ char ∈ digits, isDigit char = true) (noDigit : NoDigitAhead rest) :
    (digits ++ rest).takeWhile isDigit = digits := by
  rw [List.takeWhile_append_of_pos allDigits]
  cases rest with
  | nil => rw [List.takeWhile_nil, List.append_nil]
  | cons char behind =>
      have notDigit := noDigit char (by rw [List.head?_cons, Option.mem_some_iff])
      rw [List.takeWhile_cons_of_neg (by simp [notDigit]), List.append_nil]

theorem Digits.exists_eq {text rest : List Char} (row : Digits text rest) :
    ∃ char digits, text = char :: (digits ++ rest) ∧ isDigit char = true ∧
      ∀ char ∈ digits, isDigit char = true := by
  induction row with
  | last rest digit => exact ⟨_, [], rfl, digit, nofun⟩
  | more digit _ inductionHypothesis =>
      obtain ⟨next, digits, rfl, nextDigit, allDigits⟩ := inductionHypothesis
      refine ⟨_, next :: digits, rfl, digit, ?_⟩
      intro char member
      rcases List.mem_cons.mp member with rfl | member
      · exact nextDigit
      · exact allDigits char member

/-! ## Numbers that are passed over -/

theorem skipExponent_of_digits {text rest : List Char} (row : Digits text rest)
    (noDigit : NoDigitAhead rest) (sign : Char) (isSign : sign = '+' ∨ sign = '-') :
    skipExponent text = .ok rest ∧ skipExponent (sign :: text) = .ok rest := by
  obtain ⟨char, digits, rfl, digit, allDigits⟩ := row.exists_eq
  have unsigned : exponentSign (char :: (digits ++ rest)) = (false, char :: (digits ++ rest)) := by
    unfold exponentSign
    split
    · next equality =>
        injection equality with head
        rw [head] at digit
        contradiction
    · next equality =>
        injection equality with head
        rw [head] at digit
        contradiction
    · rfl
  constructor
  · simp only [skipExponent, unsigned, digit, if_true,
      dropWhile_append_of_digits allDigits noDigit]
  · rcases isSign with rfl | rfl
    · simp only [skipExponent, exponentSign, digit, if_true,
        dropWhile_append_of_digits allDigits noDigit]
    · simp only [skipExponent, exponentSign, digit, if_true,
        dropWhile_append_of_digits allDigits noDigit]

theorem skipExponent?_of_exponent {text rest : List Char} (exponent : Exponent text rest)
    (delimited : IsDelimited rest) :
    skipExponent? text = .ok rest := by
  cases exponent with
  | absent =>
      unfold skipExponent?
      split
      · exact absurd rfl delimited.cases.2.2.1
      · exact absurd rfl delimited.cases.2.2.2
      · rfl
  | plain isLetter row =>
      have skipped := (skipExponent_of_digits row delimited.noDigitAhead '+' (.inl rfl)).1
      rcases isLetter with rfl | rfl
      · exact skipped
      · exact skipped
  | signed isLetter isSign row =>
      have skipped := (skipExponent_of_digits row delimited.noDigitAhead _ isSign).2
      rcases isLetter with rfl | rfl
      · exact skipped
      · exact skipped

theorem Exponent.start {char : Char} {text rest : List Char}
    (exponent : Exponent (char :: text) rest) (delimited : IsDelimited rest) :
    isDigit char = false ∧ char ≠ '.' := by
  cases exponent with
  | absent => exact ⟨delimited.cases.1, delimited.cases.2.1⟩
  | plain isLetter _ => rcases isLetter with rfl | rfl <;> decide
  | signed isLetter _ _ => rcases isLetter with rfl | rfl <;> decide

theorem Exponent.noDigitAhead {text rest : List Char} (exponent : Exponent text rest)
    (delimited : IsDelimited rest) :
    NoDigitAhead text := by
  cases text with
  | nil => exact nofun
  | cons char behind => exact .cons (exponent.start delimited).1 behind

theorem Fraction.noDigitAhead {point letter rest : List Char} (fraction : Fraction point letter)
    (exponent : Exponent letter rest) (delimited : IsDelimited rest) :
    NoDigitAhead point := by
  cases fraction with
  | absent => exact exponent.noDigitAhead delimited
  | present _ => exact .cons (by decide) _

theorem skipAfterWhole_of_fraction {point letter rest : List Char}
    (fraction : Fraction point letter) (exponent : Exponent letter rest)
    (delimited : IsDelimited rest) :
    skipAfterWhole point = .ok rest := by
  cases fraction with
  | absent =>
      unfold skipAfterWhole
      split
      · exact absurd rfl (exponent.start delimited).2
      · exact skipExponent?_of_exponent exponent delimited
  | present row =>
      obtain ⟨char, digits, rfl, digit, allDigits⟩ := row.exists_eq
      have behindDigits :
          (char :: (digits ++ letter)).dropWhile isDigit = letter := by
        rw [List.dropWhile_cons_of_pos digit]
        exact dropWhile_append_of_digits allDigits (exponent.noDigitAhead delimited)
      simp only [skipAfterWhole, digit, if_true, behindDigits]
      exact skipExponent?_of_exponent exponent delimited

theorem skipNumber_of_unsigned {text rest : List Char} (number : Unsigned text rest)
    (delimited : IsDelimited rest) :
    skipNumber text = .ok rest := by
  obtain ⟨point, letter, whole, fraction, exponent⟩ := number
  have noDigit := fraction.noDigitAhead exponent delimited
  have skipped := skipAfterWhole_of_fraction fraction exponent delimited
  have notZeroStart {char : Char} {behind : List Char} (digit : isDigit char = true)
      (notZero : char ≠ '0') (behindDigits : behind.dropWhile isDigit = point) :
      skipNumber (char :: behind) = .ok rest := by
    unfold skipNumber
    split
    · contradiction
    · next equality =>
        injection equality with head
        exact absurd head notZero
    · next equality =>
        injection equality with head tail
        subst head tail
        rw [if_pos digit, behindDigits]
        exact skipped
  cases whole with
  | zero =>
      cases point with
      | nil => exact skipped
      | cons char behind =>
          have notDigit := noDigit char (by rw [List.head?_cons, Option.mem_some_iff])
          simp only [skipNumber, notDigit]
          exact skipped
  | single _ digit notZero =>
      refine notZeroStart digit notZero ?_
      exact dropWhile_append_of_digits (List.forall_mem_nil _) noDigit
  | several digit notZero row =>
      obtain ⟨next, digits, rfl, nextDigit, allDigits⟩ := row.exists_eq
      refine notZeroStart digit notZero ?_
      rw [List.dropWhile_cons_of_pos nextDigit]
      exact dropWhile_append_of_digits allDigits noDigit

/-! ## Numbers that are read -/

theorem floatingNumber_isFloating {negative : Bool} {significand : Nat} {exponent : Int}
    {rest behind : List Char} {number : Number}
    (read : floatingNumber negative significand exponent rest = .ok (number, behind)) :
    ∃ magnitude, number = .floating negative magnitude := by
  unfold floatingNumber at read
  split at read
  · next magnitude _ =>
      injection read with equality
      injection equality with sameNumber
      exact ⟨magnitude, sameNumber.symm⟩
  · contradiction

theorem readExponent_isFloating {negative : Bool} {significand : Nat} {shift : Int}
    {text behind : List Char} {number : Number}
    (read : readExponent negative significand shift text = .ok (number, behind)) :
    ∃ magnitude, number = .floating negative magnitude := by
  unfold readExponent at read
  rcases exponentSign text with ⟨downward, unsigned⟩
  dsimp only at read
  split at read
  · contradiction
  · contradiction
  · split at read
    · exact floatingNumber_isFloating read
    · split at read
      · contradiction
      · injection read with equality
        injection equality with sameNumber
        exact ⟨_, sameNumber.symm⟩

theorem readFraction_isFloating {negative : Bool} {significand : Nat} {shift : Int}
    {text behind : List Char} {number : Number}
    (read : readFraction negative significand shift text = .ok (number, behind)) :
    ∃ magnitude, number = .floating negative magnitude := by
  unfold readFraction at read
  dsimp only at read
  split at read
  · contradiction
  · contradiction
  · simp only [readExponent?] at read
    split at read
    · exact readExponent_isFloating read
    · exact readExponent_isFloating read
    · exact floatingNumber_isFloating read

theorem exists_digitChar {char : Char} (digit : isDigit char = true) :
    ∃ value < 10, char = Nat.digitChar value ∧ digitValue char = value := by
  have written : ∀ value : Fin 10, Nat.digitChar value = Char.ofNat (48 + value) := by decide
  simp only [isDigit, Bool.and_eq_true, decide_eq_true_eq] at digit
  have low : 48 ≤ char.toNat := digit.1
  have high : char.toNat ≤ 57 := digit.2
  refine ⟨char.toNat - 48, by omega, ?_, rfl⟩
  rw [written ⟨char.toNat - 48, by omega⟩, Nat.add_sub_of_le low, Char.ofNat_toNat]

/-- Digits behind a number that is not zero are the last digits of a greater number. -/
theorem toDigits_ofDigitChars {digits : List Char}
    (allDigits : ∀ char ∈ digits, isDigit char = true) {number : Nat} (positive : 0 < number) :
    Nat.toDigits 10 (Nat.ofDigitChars 10 digits number) = Nat.toDigits 10 number ++ digits := by
  induction digits generalizing number with
  | nil => rw [Nat.ofDigitChars_nil, List.append_nil]
  | cons digit digits inductionHypothesis =>
      obtain ⟨value, small, written, sameValue⟩ :=
        exists_digitChar (allDigits digit List.mem_cons_self)
      have longer :
          Nat.toDigits 10 (10 * number + value) = Nat.toDigits 10 number ++ [digit] := by
        rw [← Nat.toDigits_append_toDigits (by decide) positive small,
          Nat.toDigits_of_lt_base small, written]
      have others : ∀ char ∈ digits, isDigit char = true :=
        fun char member => allDigits char (List.mem_cons_of_mem digit member)
      rw [Nat.ofDigitChars_cons, show digit.toNat - '0'.toNat = value from sameValue,
        inductionHypothesis others (by omega), longer, List.append_assoc]
      rfl

theorem eq_ofDigitChars_of_appendDigits {limit : Nat} {digits : List Char} :
    ∀ {number value : Nat}, appendDigits limit number digits = (value, []) →
      value = Nat.ofDigitChars 10 digits number := by
  induction digits with
  | nil =>
      intro number value appended
      rw [Nat.ofDigitChars_nil]
      exact (congrArg Prod.fst appended).symm
  | cons digit digits inductionHypothesis =>
      intro number value appended
      rw [appendDigits] at appended
      split at appended
      · rw [Nat.ofDigitChars_cons, inductionHypothesis appended, Nat.mul_comm]
        rfl
      · exact absurd (congrArg Prod.snd appended) (List.cons_ne_nil digit digits)

theorem readAfterWhole_eq_natural {negative : Bool} {significand left value : Nat}
    {text behind : List Char}
    (read : readAfterWhole negative significand left text = .ok (.natural value, behind)) :
    negative = false ∧ left = 0 ∧ significand = value ∧ text = behind := by
  unfold readAfterWhole at read
  split at read
  · obtain ⟨magnitude, equality⟩ := readFraction_isFloating read
    contradiction
  · obtain ⟨magnitude, equality⟩ := readExponent_isFloating read
    contradiction
  · obtain ⟨magnitude, equality⟩ := readExponent_isFloating read
    contradiction
  · split at read
    · next noneLeft =>
        simp only [bind, Except.bind] at read
        split at read
        · contradiction
        · next number integer =>
            simp only [pure, Except.pure, Except.ok.injEq, Prod.mk.injEq] at read
            rw [read.1, integerNumber] at integer
            split at integer
            · next notNegative =>
                exact ⟨notNegative, noneLeft, Number.natural.inj (Except.ok.inj integer), read.2⟩
            split at integer
            · injection integer with impossible
              contradiction
            split at integer
            · injection integer with impossible
              contradiction
            · contradiction
    · obtain ⟨magnitude, equality⟩ := floatingNumber_isFloating read
      contradiction

/-- Only the decimal digits of a number, without a sign, are read as that number. -/
theorem eq_toDigits_of_readNumber {negative : Bool} {value : Nat} {text behind : List Char}
    (read : readNumber negative text = .ok (.natural value, behind)) :
    negative = false ∧ text = Nat.toDigits 10 value ++ behind := by
  have single {rest : List Char} (read : readAfterWhole negative 0 0 rest =
      .ok (.natural value, behind)) :
      negative = false ∧ '0' :: rest = Nat.toDigits 10 value ++ behind := by
    obtain ⟨notNegative, _, rfl, rfl⟩ := readAfterWhole_eq_natural read
    exact ⟨notNegative, rfl⟩
  unfold readNumber at read
  split at read
  · contradiction
  · split at read
    · split at read
      · contradiction
      · exact single read
    · exact single read
  · next char rest notZero =>
      split at read
      · next digit =>
          obtain ⟨notNegative, noneLeft, sameValue, rfl⟩ := readAfterWhole_eq_natural read
          refine ⟨notNegative, ?_⟩
          obtain ⟨first, small, written, sameFirst⟩ := exists_digitChar digit
          have positive : 0 < first := by
            refine Nat.pos_of_ne_zero fun isZero => notZero ?_
            rw [written, isZero]
            rfl
          have appended := eq_ofDigitChars_of_appendDigits
            (Prod.ext sameValue (List.eq_nil_of_length_eq_zero noneLeft))
          rw [List.takeWhile_cons_of_pos digit, Nat.ofDigitChars_cons,
            show char.toNat - '0'.toNat = first from sameFirst] at appended
          have others : ∀ char ∈ rest.takeWhile isDigit, isDigit char = true :=
            List.all_eq_true.mp List.all_takeWhile
          rw [appended, toDigits_ofDigitChars others (by omega), List.dropWhile_cons_of_pos digit]
          simp only [Nat.mul_zero, Nat.zero_add, Nat.toDigits_of_lt_base small, ← written]
          simp only [List.takeWhile_append_dropWhile, List.cons_append, List.nil_append]
      · contradiction

/-! ## Written numbers -/

theorem isDigit_of_mem_toDigits {number : Nat} {char : Char}
    (member : char ∈ Nat.toDigits 10 number) :
    isDigit char = true := by
  have digit := Nat.isDigit_of_mem_toDigits (by decide) (by decide) member
  simp only [Char.isDigit, isDigit, Bool.and_eq_true, decide_eq_true_eq] at digit ⊢
  exact digit

theorem eq_zero_of_toDigits (number : Nat) :
    ∀ digits : List Char, Nat.toDigits 10 number = '0' :: digits → number = 0 ∧ digits = [] := by
  induction number using Nat.strongRecOn with
  | ind number inductionHypothesis =>
      intro digits equality
      by_cases small : number < 10
      · rw [Nat.toDigits_of_lt_base small] at equality
        injection equality with sameDigit noDigits
        have unique : ∀ digit : Fin 10, Nat.digitChar digit = '0' → digit.val = 0 := by decide
        exact ⟨unique ⟨number, small⟩ sameDigit, noDigits.symm⟩
      · have large : 10 ≤ number := Nat.not_lt.mp small
        rw [Nat.toDigits_of_base_le (by decide) large] at equality
        cases shorter : Nat.toDigits 10 (number / 10) with
        | nil => exact absurd shorter Nat.toDigits_ne_nil
        | cons first others =>
            rw [shorter, List.cons_append] at equality
            injection equality with sameFirst _
            rw [sameFirst] at shorter
            have isZero := (inductionHypothesis (number / 10) (by omega) others shorter).1
            omega

theorem le_ofDigitChars (digits : List Char) :
    ∀ number : Nat, number ≤ Nat.ofDigitChars 10 digits number := by
  induction digits with
  | nil =>
      intro number
      exact Nat.le_of_eq Nat.ofDigitChars_nil.symm
  | cons digit digits inductionHypothesis =>
      intro number
      rw [Nat.ofDigitChars_cons]
      have later := inductionHypothesis (10 * number + (digit.toNat - '0'.toNat))
      omega

/-- Digits are appended one by one as long as the number stays small. -/
theorem appendDigits_of_le {limit : Nat} (digits : List Char) :
    ∀ number : Nat, Nat.ofDigitChars 10 digits number ≤ limit →
      appendDigits limit number digits = (Nat.ofDigitChars 10 digits number, []) := by
  induction digits with
  | nil =>
      intro number _
      rw [appendDigits, Nat.ofDigitChars_nil]
  | cons digit digits inductionHypothesis =>
      intro number small
      have longer : number * 10 + digitValue digit = 10 * number + (digit.toNat - '0'.toNat) := by
        rw [Nat.mul_comm]
        rfl
      rw [Nat.ofDigitChars_cons] at small ⊢
      have fits := Nat.le_trans (le_ofDigitChars digits _) small
      rw [appendDigits, longer]
      simp only [fits, if_true]
      exact inductionHypothesis _ small

theorem readAfterWhole_of_delimited {significand : Nat} {rest : List Char}
    (delimited : IsDelimited rest) :
    readAfterWhole false significand 0 rest = .ok (.natural significand, rest) := by
  unfold readAfterWhole
  split
  · exact absurd rfl delimited.cases.2.1
  · exact absurd rfl delimited.cases.2.2.1
  · exact absurd rfl delimited.cases.2.2.2
  · rfl

theorem readNumber_toDigits {number : Nat} (small : number < UInt64.size) {rest : List Char}
    (delimited : IsDelimited rest) :
    readNumber false (Nat.toDigits 10 number ++ rest) = .ok (.natural number, rest) := by
  have noDigit := delimited.noDigitAhead
  have allDigits : ∀ char ∈ Nat.toDigits 10 number, isDigit char = true :=
    fun _ member => isDigit_of_mem_toDigits member
  have fits : Nat.ofDigitChars 10 (Nat.toDigits 10 number) 0 ≤ maxSignificand := by
    rw [Nat.ofDigitChars_ten_toDigits]
    exact Nat.le_pred_of_lt small
  have appended := appendDigits_of_le (Nat.toDigits 10 number) 0 fits
  rw [Nat.ofDigitChars_ten_toDigits] at appended
  have taken := takeWhile_append_of_digits allDigits noDigit
  have dropped := dropWhile_append_of_digits allDigits noDigit
  cases written : Nat.toDigits 10 number with
  | nil => exact absurd written Nat.toDigits_ne_nil
  | cons first others =>
      rw [written] at allDigits appended taken dropped
      have digit := allDigits first List.mem_cons_self
      by_cases zero : first = '0'
      · rw [zero] at written ⊢
        obtain ⟨rfl, rfl⟩ := eq_zero_of_toDigits number others written
        cases rest with
        | nil => rfl
        | cons next behind =>
            simp only [List.cons_append, List.nil_append, readNumber, delimited.cases.1]
            exact readAfterWhole_of_delimited delimited
      · rw [List.cons_append] at taken dropped ⊢
        unfold readNumber
        split
        · contradiction
        · next equality =>
            injection equality with head
            exact absurd head zero
        · next equality =>
            injection equality with head tail
            subst head tail
            rw [if_pos digit]
            simp only [taken, dropped, appended]
            exact readAfterWhole_of_delimited delimited

end KeyStore.Json
