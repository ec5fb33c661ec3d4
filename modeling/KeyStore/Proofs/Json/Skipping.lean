import KeyStore.Proofs.Json.Numbers
import KeyStore.Proofs.Json.Strings

/-!
# Values that are passed over

The reader that passes over values gets to the end of every JSON value. Its budget is three calls
for each character, so the proof goes by the derivation of the value and carries a budget of three
times the length of what is unread.
-/

namespace KeyStore.Json

theorem StringBody.length_lt {text rest : List Char} (body : StringBody text rest) :
    rest.length < text.length := by
  induction body with
  | close rest =>
      exact Nat.lt_succ_self rest.length
  | plain _ _ _ _ inductionHypothesis =>
      exact Nat.lt_succ_of_lt inductionHypothesis
  | letter _ _ inductionHypothesis =>
      exact Nat.lt_succ_of_lt (Nat.lt_succ_of_lt inductionHypothesis)
  | code digits _ inductionHypothesis =>
      have shorter := hexNumber?_length digits
      simp only [List.length_cons]
      omega

theorem Digits.length_lt {text rest : List Char} (row : Digits text rest) :
    rest.length < text.length := by
  induction row with
  | last rest _ => exact Nat.lt_succ_self rest.length
  | more _ _ inductionHypothesis => exact Nat.lt_succ_of_lt inductionHypothesis

theorem Whole.length_lt {text rest : List Char} (whole : Whole text rest) :
    rest.length < text.length := by
  cases whole with
  | zero => exact Nat.lt_succ_self _
  | single => exact Nat.lt_succ_self _
  | several _ _ row => exact Nat.lt_succ_of_lt row.length_lt

theorem Fraction.length_le {text rest : List Char} (fraction : Fraction text rest) :
    rest.length ≤ text.length := by
  cases fraction with
  | absent => exact Nat.le_refl _
  | present row => exact Nat.le_succ_of_le (Nat.le_of_lt row.length_lt)

theorem Exponent.length_le {text rest : List Char} (exponent : Exponent text rest) :
    rest.length ≤ text.length := by
  cases exponent with
  | absent => exact Nat.le_refl _
  | plain _ row => exact Nat.le_succ_of_le (Nat.le_of_lt row.length_lt)
  | signed _ _ row =>
      exact Nat.le_succ_of_le (Nat.le_succ_of_le (Nat.le_of_lt row.length_lt))

theorem Unsigned.length_lt {text rest : List Char} (number : Unsigned text rest) :
    rest.length < text.length := by
  obtain ⟨point, letter, whole, fraction, exponent⟩ := number
  calc
    rest.length ≤ letter.length := exponent.length_le
    _ ≤ point.length := fraction.length_le
    _ < text.length := whole.length_lt

theorem Name.body {text rest : List Char} {name : Option String} (named : Name text name rest) :
    StringBody text rest := by
  cases named with
  | spelled form => exact form.body
  | broken body _ => exact body

mutual

theorem Value.length_lt {text rest : List Char} : Value text rest → rest.length < text.length
  | .nullLiteral rest => by
      simp only [List.length_cons]
      omega
  | .trueLiteral rest => by
      simp only [List.length_cons]
      omega
  | .falseLiteral rest => by
      simp only [List.length_cons]
      omega
  | .positive number => number.length_lt
  | .negative number => Nat.lt_succ_of_lt number.length_lt
  | .string body => Nat.lt_succ_of_lt body.length_lt
  | .emptyArray blanks => Nat.lt_succ_of_lt blanks.length_le
  | .array elements => Nat.lt_succ_of_lt elements.length_lt
  | .emptyObject blanks => Nat.lt_succ_of_lt blanks.length_le
  | .object parts => Nat.lt_succ_of_lt parts.length_lt

theorem Elements.length_lt {text rest : List Char} :
    Elements text rest → rest.length < text.length
  | .last before value after => by
      have first := before.length_le
      have second := value.length_lt
      have third := after.length_le
      rw [List.length_cons] at third
      omega
  | .more before value after later => by
      have first := before.length_le
      have second := value.length_lt
      have third := after.length_le
      have fourth := later.length_lt
      rw [List.length_cons] at third
      omega

theorem Members.length_lt {members : List (Option String × List Char)} {text rest : List Char} :
    Members members text rest → rest.length < text.length
  | .last part after => by
      have first := part.length_lt
      have second := after.length_le
      rw [List.length_cons] at second
      omega
  | .more part after later => by
      have first := part.length_lt
      have second := after.length_le
      have third := later.length_lt
      rw [List.length_cons] at second
      omega

theorem Member.length_lt {member : Option String × List Char} {text rest : List Char} :
    Member member text rest → rest.length < text.length
  | .intro blanks named colon space holds => by
      have first := blanks.length_le
      have second := named.body.length_lt
      have third := colon.length_le
      have fourth := space.length_le
      have fifth := holds.length_lt
      rw [List.length_cons] at first third
      omega

end

theorem Unsigned.exists_cons {text rest : List Char} (number : Unsigned text rest) :
    ∃ char behind, text = char :: behind ∧ isDigit char = true := by
  obtain ⟨point, letter, whole, _, _⟩ := number
  cases whole with
  | zero => exact ⟨_, _, rfl, by decide⟩
  | single _ digit _ => exact ⟨_, _, rfl, digit⟩
  | several digit _ _ => exact ⟨_, _, rfl, digit⟩

theorem Value.exists_cons {text rest : List Char} (value : Value text rest) :
    ∃ char behind, text = char :: behind ∧ isSeparator char = false ∧ char ≠ ']' := by
  cases value with
  | positive number =>
      obtain ⟨char, behind, rfl, digit⟩ := number.exists_cons
      exact ⟨char, behind, rfl, notSeparator_of_isDigit digit,
        ne_of_isDigit digit (by decide)⟩
  | _ => exact ⟨_, _, rfl, by decide, by decide⟩

theorem Elements.exists_start {text rest : List Char} (elements : Elements text rest) :
    ∃ char behind, Blanks text (char :: behind) ∧ isSeparator char = false ∧ char ≠ ']' := by
  cases elements with
  | last before value _ =>
      obtain ⟨char, behind, rfl, notSeparator, notClose⟩ := value.exists_cons
      exact ⟨char, behind, before, notSeparator, notClose⟩
  | more before value _ _ =>
      obtain ⟨char, behind, rfl, notSeparator, notClose⟩ := value.exists_cons
      exact ⟨char, behind, before, notSeparator, notClose⟩

theorem Member.exists_start {member : Option String × List Char} {text rest : List Char}
    (part : Member member text rest) :
    ∃ behind, Blanks text ('"' :: behind) := by
  cases part with
  | intro blanks _ _ _ _ => exact ⟨_, blanks⟩

theorem Members.exists_start {members : List (Option String × List Char)} {text rest : List Char}
    (parts : Members members text rest) :
    ∃ behind, Blanks text ('"' :: behind) := by
  cases parts with
  | last part _ => exact part.exists_start
  | more part _ _ => exact part.exists_start

/-! ## Passing over values -/

theorem skipValue_of_blanks {text rest : List Char} (blanks : Blanks text rest) (budget : Nat) :
    skipValue budget text = skipValue budget rest := by
  cases budget with
  | zero => rw [skipValue, skipValue]
  | succ budget => rw [skipValue, skipValue, blanks.skipBlanks_eq]

theorem skipValue_scalar {char : Char} {text rest : List Char}
    (notSeparator : isSeparator char = false) (notList : char ≠ '[') (notObject : char ≠ '\x7b')
    (skipped : skipScalar char text = .ok rest) (budget : Nat) :
    skipValue (budget + 1) (char :: text) = .ok rest := by
  rw [skipValue, skipBlanks_cons notSeparator]
  simp only [notList, notObject, if_false]
  exact skipped

theorem skipScalar_of_isDigit {char : Char} (digit : isDigit char = true) (rest : List Char) :
    skipScalar char rest = skipNumber (char :: rest) := by
  have isOther {other : Char} (notDigit : isDigit other = false) := ne_of_isDigit digit notDigit
  rw [skipScalar, if_neg (isOther (by decide)), if_neg (isOther (by decide)),
    if_neg (isOther (by decide)), if_neg (isOther (by decide)), if_pos digit]

theorem skipValue_of_unsigned {text rest : List Char} (number : Unsigned text rest)
    (delimited : IsDelimited rest) (budget : Nat) :
    skipValue (budget + 1) text = .ok rest := by
  have skipped := skipNumber_of_unsigned number delimited
  obtain ⟨char, behind, rfl, digit⟩ := number.exists_cons
  have isOther {other : Char} (notDigit : isDigit other = false) := ne_of_isDigit digit notDigit
  refine skipValue_scalar (notSeparator_of_isDigit digit) (isOther (by decide))
    (isOther (by decide)) ?_ budget
  rw [skipScalar_of_isDigit digit]
  exact skipped

theorem skipValue_list (budget : Nat) (text : List Char) :
    skipValue (budget + 1) ('[' :: text) = skipParts budget .list true text := by
  rw [skipValue, skipBlanks_cons (by decide)]
  rfl

theorem skipValue_object (budget : Nat) (text : List Char) :
    skipValue (budget + 1) ('\x7b' :: text) = skipParts budget .object true text := by
  rw [skipValue, skipBlanks_cons (by decide)]
  rfl

theorem skipParts_close (frame : Frame) {text rest : List Char}
    (blanks : Blanks text (frame.close :: rest)) (first : Bool) (budget : Nat) :
    skipParts (budget + 1) frame first text = .ok rest := by
  have notSeparator : isSeparator frame.close = false := by
    cases frame with
    | list => decide
    | object => decide
  rw [skipParts, blanks.ends_at notSeparator]
  simp only [if_true]

theorem skipParts_comma (frame : Frame) {text others : List Char}
    (blanks : Blanks text (',' :: others)) (budget : Nat) :
    skipParts (budget + 1) frame false text = skipPart budget frame others := by
  have notClose : ',' ≠ frame.close := by
    cases frame with
    | list => decide
    | object => decide
  rw [skipParts, blanks.ends_at (by decide)]
  simp only [notClose, if_false, if_true, Bool.false_eq_true]

theorem skipPart_of_blanks (frame : Frame) {text rest : List Char} (blanks : Blanks text rest)
    (budget : Nat) :
    skipPart budget frame text = skipPart budget frame rest := by
  cases budget with
  | zero => rw [skipPart, skipPart]
  | succ budget =>
      cases frame with
      | list => simp only [skipPart, bind, Except.bind, skipValue_of_blanks blanks]
      | object => simp only [skipPart, skipName, blanks.skipBlanks_eq]

theorem skipParts_first (frame : Frame) {text behind : List Char} {char : Char}
    (blanks : Blanks text (char :: behind)) (notSeparator : isSeparator char = false)
    (notClose : char ≠ frame.close) (budget : Nat) :
    skipParts (budget + 1) frame true text = skipPart budget frame text := by
  rw [skipParts, blanks.ends_at notSeparator]
  simp only [notClose, if_false, if_true]
  exact (skipPart_of_blanks frame blanks budget).symm

theorem skipPart_list {text behind : List Char} {budget : Nat}
    (skipped : skipValue budget text = .ok behind) :
    skipPart (budget + 1) .list text = skipParts budget .list false behind := by
  simp only [skipPart, bind, Except.bind, skipped]

theorem skipPart_object {text value behind : List Char} {budget : Nat}
    (named : skipName text = .ok value) (skipped : skipValue budget value = .ok behind) :
    skipPart (budget + 1) .object text = skipParts budget .object false behind := by
  simp only [skipPart, bind, Except.bind, named, skipped]

theorem skipName_of_name {text nameText colonText before : List Char} {name : Option String}
    (blanks : Blanks text ('"' :: nameText)) (named : Name nameText name colonText)
    (colon : Blanks colonText (':' :: before)) :
    skipName text = .ok before := by
  unfold skipName
  rw [blanks.ends_at (by decide)]
  simp only [skipText_of_body named.body, readColon,
    colon.ends_at (show isSeparator ':' = false by decide)]

mutual

theorem Value.skipValue_eq {text rest : List Char} :
    Value text rest → IsDelimited rest →
      ∀ budget, 3 * text.length ≤ budget → skipValue (budget + 1) text = .ok rest
  | .nullLiteral rest, _, budget, _ =>
      skipValue_scalar (by decide) (by decide) (by decide) rfl budget
  | .trueLiteral rest, _, budget, _ =>
      skipValue_scalar (by decide) (by decide) (by decide) rfl budget
  | .falseLiteral rest, _, budget, _ =>
      skipValue_scalar (by decide) (by decide) (by decide) rfl budget
  | .positive number, delimited, budget, _ => skipValue_of_unsigned number delimited budget
  | .negative number, delimited, budget, _ => by
      refine skipValue_scalar (by decide) (by decide) (by decide) ?_ budget
      exact skipNumber_of_unsigned number delimited
  | .string body, _, budget, _ => by
      refine skipValue_scalar (by decide) (by decide) (by decide) ?_ budget
      exact skipText_of_body body
  | .emptyArray blanks, _, budget, enough => by
      rw [List.length_cons] at enough
      obtain ⟨left, rfl⟩ : ∃ left, budget = left + 1 := ⟨budget - 1, by omega⟩
      rw [skipValue_list]
      exact skipParts_close .list blanks true left
  | .array elements, _, budget, enough => by
      rw [List.length_cons] at enough
      obtain ⟨left, rfl⟩ : ∃ left, budget = left + 2 := ⟨budget - 2, by omega⟩
      obtain ⟨char, behind, blanks, notSeparator, notClose⟩ := elements.exists_start
      rw [skipValue_list, skipParts_first .list blanks notSeparator notClose]
      exact elements.skipPart_eq left (by omega)
  | .emptyObject blanks, _, budget, enough => by
      rw [List.length_cons] at enough
      obtain ⟨left, rfl⟩ : ∃ left, budget = left + 1 := ⟨budget - 1, by omega⟩
      rw [skipValue_object]
      exact skipParts_close .object blanks true left
  | .object parts, _, budget, enough => by
      rw [List.length_cons] at enough
      obtain ⟨left, rfl⟩ : ∃ left, budget = left + 2 := ⟨budget - 2, by omega⟩
      obtain ⟨behind, blanks⟩ := parts.exists_start
      rw [skipValue_object, skipParts_first .object blanks (by decide) (by decide)]
      exact parts.skipPart_eq left (by omega)

theorem Elements.skipPart_eq {text rest : List Char} :
    Elements text rest →
      ∀ budget, 3 * text.length + 1 ≤ budget → skipPart (budget + 1) .list text = .ok rest
  | .last before value after, budget, enough => by
      have shorter := before.length_le
      obtain ⟨left, rfl⟩ : ∃ left, budget = left + 1 := ⟨budget - 1, by omega⟩
      have skipped := value.skipValue_eq (.of_blanks after (.inr (.inl rfl))) left (by omega)
      rw [← skipValue_of_blanks before] at skipped
      rw [skipPart_list skipped]
      exact skipParts_close .list after false left
  | .more before value after later, budget, enough => by
      have shorter := before.length_le
      have behindValue := value.length_lt
      have behindComma := after.length_le
      rw [List.length_cons] at behindComma
      obtain ⟨left, rfl⟩ : ∃ left, budget = left + 2 := ⟨budget - 2, by omega⟩
      have skipped := value.skipValue_eq (.of_blanks after (.inl rfl)) (left + 1) (by omega)
      rw [← skipValue_of_blanks before] at skipped
      rw [skipPart_list skipped, skipParts_comma .list after]
      exact later.skipPart_eq left (by omega)

theorem Members.skipPart_eq {members : List (Option String × List Char)} {text rest : List Char} :
    Members members text rest →
      ∀ budget, 3 * text.length + 1 ≤ budget → skipPart (budget + 1) .object text = .ok rest
  | .last part after, budget, enough => by
      obtain ⟨left, rfl⟩ : ∃ left, budget = left + 1 := ⟨budget - 1, by omega⟩
      obtain ⟨value, named, skipped⟩ :=
        part.skipValue_eq (.of_blanks after (.inr (.inr rfl))) left (by omega)
      rw [skipPart_object named skipped]
      exact skipParts_close .object after false left
  | .more part after later, budget, enough => by
      have behindPart := part.length_lt
      have behindComma := after.length_le
      rw [List.length_cons] at behindComma
      obtain ⟨left, rfl⟩ : ∃ left, budget = left + 2 := ⟨budget - 2, by omega⟩
      obtain ⟨value, named, skipped⟩ :=
        part.skipValue_eq (.of_blanks after (.inl rfl)) (left + 1) (by omega)
      rw [skipPart_object named skipped, skipParts_comma .object after]
      exact later.skipPart_eq left (by omega)

theorem Member.skipValue_eq {member : Option String × List Char} {text rest : List Char} :
    Member member text rest → IsDelimited rest → ∀ budget, 3 * text.length ≤ budget →
      ∃ value, skipName text = .ok value ∧ skipValue (budget + 1) value = .ok rest
  | .intro blanks named colon space holds, delimited, budget, enough => by
      have first := blanks.length_le
      have second := named.body.length_lt
      have third := colon.length_le
      have fourth := space.length_le
      rw [List.length_cons] at first third
      refine ⟨_, skipName_of_name blanks named colon, ?_⟩
      rw [skipValue_of_blanks space]
      exact holds.skipValue_eq delimited budget (by omega)

end

/-- Every JSON value is passed over to its end, with the blanks in front of it. -/
theorem Value.skip_of_blanks {text start rest : List Char} (value : Value start rest)
    (blanks : Blanks text start) (delimited : IsDelimited rest) :
    skip text = .ok rest := by
  have shorter := blanks.length_le
  rw [skip, skipBudget, skipValue_of_blanks blanks]
  exact value.skipValue_eq delimited (3 * text.length + 2) (by omega)

end KeyStore.Json
