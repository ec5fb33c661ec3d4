import KeyStore.Proofs.Json.Grammar

/-!
# Strings

The reader of strings finds exactly the forms of the grammar, and so does the reader that passes
over them. What is written for a string is one of its forms.
-/

namespace KeyStore.Json

theorem readHex_eq_ok_iff {text rest : List Char} {number : Nat} :
    readHex text = .ok (number, rest) ↔ hexNumber? text = some (number, rest) := by
  unfold readHex
  cases found : hexNumber? text with
  | none =>
      by_cases short : byteLength text < 4
      · simp [short]
      · simp [short]
  | some result => simp

theorem expectInPair_eq_ok_iff {expected : Char} {text rest : List Char} :
    expectInPair expected text = .ok rest ↔ text = expected :: rest := by
  cases text with
  | nil => simp [expectInPair]
  | cons char behind =>
      by_cases same : char = expected
      · simp [expectInPair, same]
      · simp [expectInPair, same, faultPast]

theorem readLowSurrogate_eq_ok_iff {high : Nat} {text rest : List Char} {char : Char} :
    readLowSurrogate high text = .ok (char, rest) ↔
      ∃ behind low, text = '\\' :: 'u' :: behind ∧ hexNumber? behind = some (low, rest) ∧
        IsLowSurrogate low ∧
        char = Char.ofNat (0x10000 + (high - 0xd800) * 0x400 + (low - 0xdc00)) := by
  constructor
  · intro read
    simp only [readLowSurrogate, bind, Except.bind] at read
    split at read
    · contradiction
    · next afterBackslash backslash =>
        split at read
        · contradiction
        · next afterLetter letter =>
            split at read
            · contradiction
            · next pair digits =>
                rcases pair with ⟨low, behind⟩
                rw [expectInPair_eq_ok_iff] at backslash letter
                rw [readHex_eq_ok_iff] at digits
                split at read
                · next isLow =>
                    simp only [pure, Except.pure, Except.ok.injEq, Prod.mk.injEq] at read
                    obtain ⟨sameChar, rfl⟩ := read
                    refine ⟨afterLetter, low, ?_, digits, isLow, sameChar.symm⟩
                    rw [backslash, letter]
                · contradiction
  · rintro ⟨behind, low, rfl, digits, isLow, sameChar⟩
    rw [sameChar]
    simp [readLowSurrogate, bind, Except.bind, expectInPair, readHex_eq_ok_iff.mpr digits, isLow,
      pure, Except.pure]

theorem escaped?_u : escaped? 'u' = none := by
  decide

theorem readEscape_letter {letter char : Char} (known : escaped? letter = some char)
    (rest : List Char) :
    readEscape (letter :: rest) = .ok (char, rest) := by
  have notNumber : letter ≠ 'u' := by
    rintro rfl
    rw [escaped?_u] at known
    contradiction
  unfold readEscape
  split
  · contradiction
  · next equality =>
      injection equality with head
      exact absurd head notNumber
  · next first behind _ equality =>
      injection equality with head tail
      subst head tail
      rw [known]

theorem readEscape_eq_ok_iff {text rest : List Char} {char : Char} :
    readEscape text = .ok (char, rest) ↔ CharForm ('\\' :: text) char rest := by
  constructor
  · intro read
    unfold readEscape at read
    split at read
    · contradiction
    · next behind =>
        simp only [bind, Except.bind] at read
        split at read
        · contradiction
        · next pair digits =>
            rcases pair with ⟨number, later⟩
            rw [readHex_eq_ok_iff] at digits
            split at read
            · contradiction
            · next notLow =>
                split at read
                · next isHigh =>
                    rw [readLowSurrogate_eq_ok_iff] at read
                    obtain ⟨second, low, rfl, lowDigits, isLow, sameChar⟩ := read
                    rw [sameChar]
                    exact .pair digits isHigh lowDigits isLow
                · next notHigh =>
                    simp only [pure, Except.pure, Except.ok.injEq, Prod.mk.injEq] at read
                    obtain ⟨rfl, rfl⟩ := read
                    exact .code digits notHigh notLow
    · next letter behind _ =>
        split at read
        · next plain known =>
            simp only [Except.ok.injEq, Prod.mk.injEq] at read
            obtain ⟨rfl, rfl⟩ := read
            exact .letter behind known
        · contradiction
  · intro form
    cases form with
    | plain _ _ notBackslash _ => exact absurd rfl notBackslash
    | letter _ known => exact readEscape_letter known _
    | code digits notHigh notLow =>
        simp [readEscape, bind, Except.bind, readHex_eq_ok_iff.mpr digits, notHigh, notLow, pure,
          Except.pure]
    | @pair _ _ _ high _ first isHigh second isLow =>
        have notLow : ¬IsLowSurrogate high := fun alsoLow =>
          absurd (Nat.le_trans alsoLow.1 isHigh.2) (by decide)
        simp only [readEscape, bind, Except.bind, readHex_eq_ok_iff.mpr first, notLow, isHigh,
          if_true, if_false]
        rw [readLowSurrogate_eq_ok_iff]
        exact ⟨_, _, rfl, second, isLow, rfl⟩

/-! ## Strings that stand for characters -/

theorem readText_close (rest : List Char) : readText ('"' :: rest) = .ok ([], rest) := by
  rw [readText]
  simp

theorem readText_of_char {text behind : List Char} {char : Char}
    (form : CharForm text char behind) :
    readText text = (readText behind).map fun found => (char :: found.1, found.2) := by
  have escape (text : List Char) (form : CharForm ('\\' :: text) char behind) :
      readText ('\\' :: text) =
        (readText behind).map fun found => (char :: found.1, found.2) := by
    rw [← readEscape_eq_ok_iff] at form
    rw [readText]
    simp only [show ('\\' : Char) ≠ '"' by decide, if_false, if_true]
    split
    · next fault failed =>
        rw [form] at failed
        contradiction
    · next plain later escaped =>
        rw [form] at escaped
        injection escaped with equality
        injection equality with sameChar sameRest
        rw [sameChar, sameRest]
        cases readText later with
        | error fault => rfl
        | ok found => rfl
  cases form with
  | plain _ notQuote notBackslash printable =>
      rw [readText]
      simp only [notQuote, notBackslash, Nat.not_lt.mpr printable, if_false]
      cases readText behind with
      | error fault => rfl
      | ok found => rfl
  | letter _ known => exact escape _ (.letter _ known)
  | code digits notHigh notLow => exact escape _ (.code digits notHigh notLow)
  | pair first isHigh second isLow => exact escape _ (.pair first isHigh second isLow)

theorem readText_of_form {text chars rest : List Char} (form : StringForm text chars rest) :
    readText text = .ok (chars, rest) := by
  induction form with
  | close rest => exact readText_close rest
  | next first _ inductionHypothesis =>
      rw [readText_of_char first, inductionHypothesis]
      rfl

theorem form_of_readText {text : List Char} :
    ∀ {chars rest : List Char}, readText text = .ok (chars, rest) → StringForm text chars rest := by
  fun_induction readText text with
  | case1 =>
      intro chars rest read
      contradiction
  | case2 behind =>
      intro chars rest read
      injection read with equality
      injection equality with noChars sameRest
      rw [← noChars, ← sameRest]
      exact .close behind
  | case3 =>
      intro chars rest read
      contradiction
  | case4 =>
      intro chars rest read
      contradiction
  | case5 escape plain behind escaped shorter others later read _ inductionHypothesis =>
      intro chars rest found
      injection found with equality
      injection equality with sameChars sameRest
      rw [← sameChars, ← sameRest]
      exact .next (readEscape_eq_ok_iff.mp escaped) (inductionHypothesis read)
  | case6 =>
      intro chars rest read
      contradiction
  | case7 =>
      intro chars rest read
      contradiction
  | case8 char behind notQuote notBackslash printable others later read inductionHypothesis =>
      intro chars rest found
      injection found with equality
      injection equality with sameChars sameRest
      rw [← sameChars, ← sameRest]
      have form := CharForm.plain behind notQuote notBackslash (Nat.not_lt.mp printable)
      exact .next form (inductionHypothesis read)

/-- A string is read exactly where the grammar has one, with the characters it stands for. -/
theorem readText_eq_ok_iff {text chars rest : List Char} :
    readText text = .ok (chars, rest) ↔ StringForm text chars rest :=
  ⟨form_of_readText, readText_of_form⟩

theorem skipEscape_letter {letter : Char} (known : (escaped? letter).isSome) (rest : List Char) :
    skipEscape (letter :: rest) = .ok rest := by
  obtain ⟨char, known⟩ := Option.isSome_iff_exists.mp known
  unfold skipEscape
  split
  · contradiction
  · next equality =>
      injection equality with head
      rw [head, escaped?_u] at known
      contradiction
  · next first behind _ equality =>
      injection equality with head tail
      subst head tail
      rw [known]

theorem skipEscape_code {text rest : List Char} {number : Nat}
    (digits : hexNumber? text = some (number, rest)) :
    skipEscape ('u' :: text) = .ok rest := by
  simp [skipEscape, bind, Except.bind, readHex_eq_ok_iff.mpr digits, pure, Except.pure]

theorem skipText_escape {text behind : List Char} (escaped : skipEscape text = .ok behind) :
    skipText ('\\' :: text) = skipText behind := by
  rw [skipText]
  simp only [show ('\\' : Char) ≠ '"' by decide, if_false, if_true]
  split
  · next fault failed =>
      rw [escaped] at failed
      contradiction
  · next later found =>
      rw [escaped] at found
      injection found with equality
      rw [equality]

theorem skipText_of_body {text rest : List Char} (body : StringBody text rest) :
    skipText text = .ok rest := by
  induction body with
  | close rest =>
      rw [skipText]
      simp
  | plain notQuote notBackslash printable _ inductionHypothesis =>
      rw [skipText]
      simp only [notQuote, notBackslash, Nat.not_lt.mpr printable, if_false]
      exact inductionHypothesis
  | letter known _ inductionHypothesis =>
      rw [skipText_escape (skipEscape_letter known _)]
      exact inductionHypothesis
  | code digits _ inductionHypothesis =>
      rw [skipText_escape (skipEscape_code digits)]
      exact inductionHypothesis

theorem CharForm.body {text behind rest : List Char} {char : Char}
    (form : CharForm text char behind) (later : StringBody behind rest) :
    StringBody text rest := by
  cases form with
  | plain _ notQuote notBackslash printable =>
      exact .plain notQuote notBackslash printable later
  | letter _ known => exact .letter (Option.isSome_of_eq_some known) later
  | code digits _ _ => exact .code digits later
  | pair first _ second _ =>
      exact .code first (.code second later)

theorem StringForm.body {text chars rest : List Char} (form : StringForm text chars rest) :
    StringBody text rest := by
  induction form with
  | close rest => exact .close rest
  | next first _ inductionHypothesis => exact first.body inductionHypothesis

theorem charForm_writeChar (char : Char) (rest : List Char) :
    CharForm (writeChar char ++ rest) char rest := by
  unfold writeChar
  split
  · next same =>
      rw [same]
      exact .letter rest rfl
  split
  · next same =>
      rw [same]
      exact .letter rest rfl
  split
  · next same =>
      rw [same]
      exact .letter rest rfl
  split
  · next same =>
      rw [same]
      exact .letter rest rfl
  split
  · next same =>
      rw [same]
      exact .letter rest rfl
  split
  · next same =>
      rw [same]
      exact .letter rest rfl
  split
  · next same =>
      rw [same]
      exact .letter rest rfl
  split
  · next control =>
      have digits : hexNumber? ('0' :: '0' :: hexDigit (char.toNat / 16) ::
          hexDigit (char.toNat % 16) :: rest) = some (char.toNat, rest) := by
        have zero : hexValue? '0' = some 0 := by decide
        have high : char.toNat / 16 < 16 := by omega
        have low : char.toNat % 16 < 16 := by omega
        simp only [hexNumber?, zero, hexValue?_hexDigit high, hexValue?_hexDigit low,
          Option.bind_eq_bind, Option.bind_some, Option.pure_def, Option.some.injEq,
          Prod.mk.injEq, and_true]
        omega
      have form := CharForm.code digits
        (fun isHigh => absurd isHigh.1 (by omega)) (fun isLow => absurd isLow.1 (by omega))
      rw [Char.ofNat_toNat] at form
      exact form
  · next notQuote notBackslash _ _ _ _ _ printable =>
      exact .plain rest notQuote notBackslash (Nat.not_lt.mp printable)

theorem stringForm_writeText (chars rest : List Char) :
    StringForm (chars.flatMap writeChar ++ '"' :: rest) chars rest := by
  induction chars with
  | nil => exact .close rest
  | cons char chars inductionHypothesis =>
      rw [List.flatMap_cons, List.append_assoc]
      exact .next (charForm_writeChar char _) inductionHypothesis

end KeyStore.Json
