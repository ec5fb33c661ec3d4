import KeyStore.Proofs.Json.Skipping

/-!
# Spans

What is taken from the start of a text has a form of the grammar, and has it whatever follows. This
module shows so for strings, for numbers and for values that are passed over: whatever the reader
gets past is a JSON value.
-/

namespace KeyStore.Json

/-- What stands in front of `behind` has the form, whatever follows it. -/
def Spans (form : (text rest : List Char) → Prop) (text behind : List Char) : Prop :=
  ∃ used, text = used ++ behind ∧ ∀ rest, form (used ++ rest) rest

namespace Spans

variable {form other joined : (text rest : List Char) → Prop} {text between behind : List Char}

theorem holds (spans : Spans form text behind) : form text behind := by
  obtain ⟨used, rfl, anywhere⟩ := spans
  exact anywhere behind

theorem of_used (used : List Char) (anywhere : ∀ rest, form (used ++ rest) rest) :
    Spans form (used ++ behind) behind :=
  ⟨used, rfl, anywhere⟩

theorem mono (spans : Spans form text behind)
    (implies : ∀ {text rest}, form text rest → other text rest) :
    Spans other text behind := by
  obtain ⟨used, rfl, anywhere⟩ := spans
  exact of_used used fun rest => implies (anywhere rest)

theorem trans (first : Spans form text between) (second : Spans other between behind)
    (joins : ∀ {text between rest}, form text between → other between rest → joined text rest) :
    Spans joined text behind := by
  obtain ⟨used, rfl, anywhere⟩ := first
  obtain ⟨others, rfl, anywhereLater⟩ := second
  rw [← List.append_assoc]
  refine of_used (used ++ others) fun rest => ?_
  rw [List.append_assoc]
  exact joins (anywhere (others ++ rest)) (anywhereLater rest)

theorem cons (char : Char) (spans : Spans form text behind)
    (joins : ∀ {text rest}, form text rest → joined (char :: text) rest) :
    Spans joined (char :: text) behind := by
  obtain ⟨used, rfl, anywhere⟩ := spans
  exact of_used (char :: used) fun rest => joins (anywhere rest)

theorem and (spans : Spans form text behind) (also : Spans other text behind) :
    Spans (fun text rest => form text rest ∧ other text rest) text behind := by
  obtain ⟨used, rfl, anywhere⟩ := spans
  obtain ⟨sameUsed, same, alsoAnywhere⟩ := also
  rw [← List.append_cancel_right same] at alsoAnywhere
  exact of_used used fun rest => ⟨anywhere rest, alsoAnywhere rest⟩

end Spans

theorem blanks_skipBlanks (text : List Char) : Blanks text (skipBlanks text) := by
  refine ⟨text.takeWhile isSeparator, fun char member => ?_, ?_⟩
  · exact List.all_eq_true.mp List.all_takeWhile char member
  · exact List.takeWhile_append_dropWhile.symm

theorem Blanks.trans {text between rest : List Char} (first : Blanks text between)
    (second : Blanks between rest) :
    Blanks text rest := by
  obtain ⟨separators, allSeparators, rfl⟩ := first
  obtain ⟨others, allOthers, rfl⟩ := second
  refine ⟨separators ++ others, ?_, (List.append_assoc _ _ _).symm⟩
  intro char member
  rcases List.mem_append.mp member with member | member
  · exact allSeparators char member
  · exact allOthers char member

theorem spans_blanks {text behind : List Char} (blanks : Blanks text behind) :
    Spans Blanks text behind := by
  obtain ⟨separators, allSeparators, rfl⟩ := blanks
  exact .of_used separators fun rest => ⟨separators, allSeparators, rfl⟩

theorem spans_word {text behind : List Char} (word : List Char)
    (blanks : Blanks text (word ++ behind)) :
    Spans (fun text rest => Blanks text (word ++ rest)) text behind := by
  have single : Spans (fun text rest => text = word ++ rest) (word ++ behind) behind :=
    .of_used word fun _ => rfl
  refine (spans_blanks blanks).trans single fun blanks same => ?_
  rw [← same]
  exact blanks

theorem spans_token {text behind : List Char} {char : Char}
    (starts : skipBlanks text = char :: behind) :
    Spans (fun text rest => Blanks text (char :: rest)) text behind := by
  have blanks := blanks_skipBlanks text
  rw [starts] at blanks
  exact spans_word [char] blanks

theorem eq_append_of_readIdent {ident text behind : List Char}
    (read : readIdent ident text = .ok behind) :
    text = ident ++ behind := by
  induction ident generalizing text with
  | nil => exact Except.ok.inj read
  | cons expected ident inductionHypothesis =>
      cases text with
      | nil => contradiction
      | cons char rest =>
          rw [readIdent] at read
          split at read
          · next same =>
              rw [same, inductionHypothesis read]
              rfl
          · contradiction

theorem spans_of_readColon {text behind : List Char} (read : readColon text = .ok behind) :
    Spans (fun text rest => Blanks text (':' :: rest)) text behind := by
  unfold readColon at read
  split at read
  · next rest starts =>
      rw [← Except.ok.inj read]
      exact spans_token starts
  · contradiction
  · contradiction

/-! ## Strings -/

theorem spans_of_hexNumber? {text behind : List Char} {number : Nat}
    (digits : hexNumber? text = some (number, behind)) :
    Spans (fun text rest => hexNumber? text = some (number, rest)) text behind := by
  unfold hexNumber? at digits
  split at digits
  · next a b c d tail =>
      simp only [Option.bind_eq_bind, Option.bind_eq_some_iff, Option.pure_def,
        Option.some.injEq, Prod.mk.injEq] at digits
      obtain ⟨first, isFirst, second, isSecond, third, isThird, fourth, isFourth, value, rfl⟩ :=
        digits
      refine .of_used [a, b, c, d] fun rest => ?_
      simp only [List.cons_append, List.nil_append, hexNumber?, isFirst, isSecond, isThird,
        isFourth, Option.bind_eq_bind, Option.bind_some, Option.pure_def, value]
  · contradiction

theorem spans_of_skipEscape {text behind : List Char} (skipped : skipEscape text = .ok behind) :
    Spans (fun text rest => ∀ {stop}, StringBody rest stop → StringBody ('\\' :: text) stop) text
      behind := by
  unfold skipEscape at skipped
  split at skipped
  · contradiction
  · next digits =>
      simp only [bind, Except.bind] at skipped
      split at skipped
      · contradiction
      · next result read =>
          rw [← Except.ok.inj skipped]
          exact (spans_of_hexNumber? (readHex_eq_ok_iff.mp read)).cons 'u'
            fun digits => .code digits
  · next letter rest _ =>
      split at skipped
      · next char known =>
          rw [← Except.ok.inj skipped]
          exact .of_used [letter] fun _ => .letter (Option.isSome_of_eq_some known)
      · contradiction

theorem spans_of_skipText {text : List Char} :
    ∀ {behind : List Char}, skipText text = .ok behind → Spans StringBody text behind := by
  fun_induction skipText text with
  | case1 =>
      intro behind skipped
      contradiction
  | case2 rest =>
      intro behind skipped
      rw [← Except.ok.inj skipped]
      exact .of_used ['"'] .close
  | case3 =>
      intro behind skipped
      contradiction
  | case4 rest later escaped shorter _ inductionHypothesis =>
      intro behind skipped
      have escape := spans_of_skipEscape escaped
      obtain ⟨used, rfl, anywhere⟩ := escape.trans (inductionHypothesis skipped) fun first second =>
        first second
      exact .of_used ('\\' :: used) anywhere
  | case5 =>
      intro behind skipped
      contradiction
  | case6 char rest notQuote notBackslash printable inductionHypothesis =>
      intro behind skipped
      exact (inductionHypothesis skipped).cons char
        fun body => .plain notQuote notBackslash (Nat.not_lt.mp printable) body

theorem CharForm.spans {text behind : List Char} {char : Char} (form : CharForm text char behind) :
    Spans (fun text rest => CharForm text char rest) text behind := by
  cases form with
  | plain _ notQuote notBackslash printable =>
      exact .of_used [char] fun rest => .plain rest notQuote notBackslash printable
  | @letter letter _ _ known => exact .of_used ['\\', letter] fun rest => .letter rest known
  | code digits notHigh notLow =>
      obtain ⟨used, rfl, anywhere⟩ := spans_of_hexNumber? digits
      exact .of_used ('\\' :: 'u' :: used) fun rest => .code (anywhere rest) notHigh notLow
  | pair first isHigh second isLow =>
      obtain ⟨lowDigits, rfl, lowAnywhere⟩ := spans_of_hexNumber? second
      obtain ⟨highDigits, rfl, highAnywhere⟩ := spans_of_hexNumber? first
      refine ⟨'\\' :: 'u' :: (highDigits ++ '\\' :: 'u' :: lowDigits), ?_, fun rest => ?_⟩
      · simp only [List.cons_append, List.append_assoc]
      · simp only [List.cons_append, List.append_assoc]
        exact .pair (highAnywhere _) isHigh (lowAnywhere rest) isLow

theorem StringForm.spans {text chars behind : List Char} (form : StringForm text chars behind) :
    Spans (fun text rest => StringForm text chars rest) text behind := by
  induction form with
  | close rest => exact .of_used ['"'] .close
  | next first _ inductionHypothesis => exact first.spans.trans inductionHypothesis .next

theorem Name.of_body {text rest : List Char} (body : StringBody text rest) :
    ∃ name, Name text name rest := by
  by_cases spelled : ∃ chars behind, StringForm text chars behind
  · obtain ⟨chars, behind, form⟩ := spelled
    -- The string that stands for characters ends where the string of the grammar does.
    have skipped := skipText_of_body form.body
    rw [skipText_of_body body] at skipped
    rw [← Except.ok.inj skipped] at form
    exact ⟨_, .spelled form⟩
  · exact ⟨none, .broken body fun chars behind form => spelled ⟨chars, behind, form⟩⟩

/-! ## Numbers -/

theorem spans_digits {char : Char} (digit : isDigit char = true) (text : List Char) :
    Spans Digits (char :: text) (text.dropWhile isDigit) := by
  induction text generalizing char with
  | nil => exact .of_used [char] fun rest => .last rest digit
  | cons next text inductionHypothesis =>
      by_cases nextDigit : isDigit next = true
      · rw [List.dropWhile_cons_of_pos nextDigit]
        exact (inductionHypothesis nextDigit).cons char (.more digit)
      · rw [List.dropWhile_cons_of_neg nextDigit]
        exact .of_used [char] fun rest => .last rest digit

theorem spans_whole {char : Char} (digit : isDigit char = true) (notZero : char ≠ '0')
    (text : List Char) :
    Spans Whole (char :: text) (text.dropWhile isDigit) := by
  cases text with
  | nil => exact .of_used [char] fun rest => .single rest digit notZero
  | cons next text =>
      by_cases nextDigit : isDigit next = true
      · rw [List.dropWhile_cons_of_pos nextDigit]
        exact (spans_digits nextDigit text).cons char (.several digit notZero)
      · rw [List.dropWhile_cons_of_neg nextDigit]
        exact .of_used [char] fun rest => .single rest digit notZero

theorem spans_of_skipExponent {text behind : List Char}
    (skipped : skipExponent text = .ok behind) :
    Spans (fun text rest => ∀ {letter}, letter = 'e' ∨ letter = 'E' →
      Exponent (letter :: text) rest) text behind := by
  have unsigned : Spans Digits (exponentSign text).2 behind := by
    unfold skipExponent at skipped
    dsimp only at skipped
    split at skipped
    · next starts =>
        split at skipped
        · next digit =>
            rw [starts, ← Except.ok.inj skipped]
            exact spans_digits digit _
        · contradiction
    · contradiction
  unfold exponentSign at unsigned
  split at unsigned
  · exact unsigned.cons '+' fun row _ isLetter => .signed isLetter (.inl rfl) row
  · exact unsigned.cons '-' fun row _ isLetter => .signed isLetter (.inr rfl) row
  · exact unsigned.mono fun row _ isLetter => .plain isLetter row

theorem spans_of_skipExponent? {text behind : List Char}
    (skipped : skipExponent? text = .ok behind) :
    Spans Exponent text behind := by
  unfold skipExponent? at skipped
  split at skipped
  · exact (spans_of_skipExponent skipped).cons 'e' fun exponent => exponent (.inl rfl)
  · exact (spans_of_skipExponent skipped).cons 'E' fun exponent => exponent (.inr rfl)
  · rw [← Except.ok.inj skipped]
    exact .of_used [] .absent

theorem spans_of_skipAfterWhole {text behind : List Char}
    (skipped : skipAfterWhole text = .ok behind) :
    Spans (fun text rest => ∃ letter, Fraction text letter ∧ Exponent letter rest) text behind := by
  unfold skipAfterWhole at skipped
  split at skipped
  · split at skipped
    · next char rest =>
      split at skipped
      · next digit =>
          rw [List.dropWhile_cons_of_pos digit] at skipped
          have fraction := (spans_digits digit rest).cons '.' Fraction.present
          exact fraction.trans (spans_of_skipExponent? skipped)
            fun fraction exponent => ⟨_, fraction, exponent⟩
      · contradiction
    · contradiction
  · exact (spans_of_skipExponent? skipped).mono fun exponent => ⟨_, .absent _, exponent⟩

theorem spans_of_skipNumber {text behind : List Char} (skipped : skipNumber text = .ok behind) :
    Spans Unsigned text behind := by
  have joined {text point behind : List Char} (whole : Spans Whole text point)
      (skipped : skipAfterWhole point = .ok behind) : Spans Unsigned text behind :=
    whole.trans (spans_of_skipAfterWhole skipped)
      fun whole ⟨letter, fraction, exponent⟩ => ⟨_, letter, whole, fraction, exponent⟩
  have zero (rest : List Char) : Spans Whole ('0' :: rest) rest := .of_used ['0'] .zero
  unfold skipNumber at skipped
  split at skipped
  · contradiction
  · split at skipped
    · split at skipped
      · contradiction
      · exact joined (zero _) skipped
    · rw [← Except.ok.inj skipped]
      exact joined (zero []) rfl
  · next notZero =>
      split at skipped
      · next digit => exact joined (spans_whole digit notZero _) skipped
      · contradiction

def ValueAhead (text rest : List Char) : Prop :=
  ∃ written, Blanks text (written ++ rest) ∧ Value (written ++ rest) rest

theorem Spans.valueAhead {text start behind : List Char} (value : Spans Value start behind)
    (blanks : Blanks text start) :
    Spans ValueAhead text behind := by
  obtain ⟨separators, allSeparators, rfl⟩ := blanks
  obtain ⟨written, rfl, anywhere⟩ := value
  rw [← List.append_assoc]
  refine .of_used (separators ++ written) fun rest => ?_
  rw [List.append_assoc]
  exact ⟨written, ⟨separators, allSeparators, rfl⟩, anywhere rest⟩

theorem ValueAhead.length_lt {text rest : List Char} (ahead : ValueAhead text rest) :
    rest.length < text.length := by
  obtain ⟨written, blanks, value⟩ := ahead
  exact Nat.lt_of_lt_of_le value.length_lt blanks.length_le

theorem ValueAhead.skip_eq {text rest : List Char} (ahead : ValueAhead text rest)
    (delimited : IsDelimited rest) :
    skip text = .ok rest := by
  obtain ⟨written, blanks, value⟩ := ahead
  exact value.skip_of_blanks blanks delimited

theorem spans_of_skipScalar {char : Char} {rest behind : List Char}
    (skipped : skipScalar char rest = .ok behind) :
    Spans Value (char :: rest) behind := by
  unfold skipScalar at skipped
  split at skipped
  · next same =>
      rw [same, eq_append_of_readIdent skipped]
      exact .of_used ['n', 'u', 'l', 'l'] .nullLiteral
  split at skipped
  · next same =>
      rw [same, eq_append_of_readIdent skipped]
      exact .of_used ['t', 'r', 'u', 'e'] .trueLiteral
  split at skipped
  · next same =>
      rw [same, eq_append_of_readIdent skipped]
      exact .of_used ['f', 'a', 'l', 's', 'e'] .falseLiteral
  split at skipped
  · next same =>
      rw [same]
      exact (spans_of_skipNumber skipped).cons '-' .negative
  split at skipped
  · exact (spans_of_skipNumber skipped).mono .positive
  split at skipped
  · next same =>
      rw [same]
      exact (spans_of_skipText skipped).cons '"' .string
  · contradiction

/-- What stands between an opening bracket, or a preceding part, and a part: blanks, and a comma
unless the part is the first. -/
def Before (first : Bool) (text start : List Char) : Prop :=
  if first then Blanks text start else ∃ others, Blanks text (',' :: others) ∧ Blanks others start

namespace Frame

def Inside : Frame → (text rest : List Char) → Prop
  | .list, text, rest => Elements text rest
  | .object, text, rest => ∃ members, Members members text rest

def Part : Frame → (text rest : List Char) → Prop
  | .list, text, rest => ValueAhead text rest
  | .object, text, rest => ∃ member, Member member text rest

def Parts (frame : Frame) (first : Bool) (text rest : List Char) : Prop :=
  Blanks text (frame.close :: rest) ∨ ∃ start, Before first text start ∧ frame.Inside start rest

theorem inside_of_blanks (frame : Frame) {text start rest : List Char} (blanks : Blanks text start)
    (inside : frame.Inside start rest) :
    frame.Inside text rest := by
  cases frame with
  | list =>
      cases inside with
      | last before value after => exact .last (blanks.trans before) value after
      | more before value after later => exact .more (blanks.trans before) value after later
  | object =>
      have ofPart {member : Option String × List Char} {rest : List Char}
          (part : Member member start rest) : Member member text rest := by
        cases part with
        | intro before named colon space value =>
            exact .intro (blanks.trans before) named colon space value
      obtain ⟨members, parts⟩ := inside
      cases parts with
      | last part after => exact ⟨_, .last (ofPart part) after⟩
      | more part after later => exact ⟨_, .more (ofPart part) after later⟩

theorem inside_of_part (frame : Frame) {text behind rest : List Char}
    (part : frame.Part text behind) (parts : frame.Parts false behind rest) :
    frame.Inside text rest := by
  cases frame with
  | list =>
      obtain ⟨written, before, value⟩ := part
      rcases parts with close | ⟨start, ⟨others, comma, blanks⟩, later⟩
      · exact .last before value close
      · exact .more before value comma (inside_of_blanks .list blanks later)
  | object =>
      obtain ⟨member, part⟩ := part
      rcases parts with close | ⟨start, ⟨others, comma, blanks⟩, later⟩
      · exact ⟨_, .last part close⟩
      · obtain ⟨members, later⟩ := inside_of_blanks .object blanks later
        exact ⟨_, .more part comma later⟩

theorem value_of_list {text rest : List Char} (parts : Frame.list.Parts true text rest) :
    Value ('[' :: text) rest := by
  rcases parts with close | ⟨start, blanks, elements⟩
  · exact .emptyArray close
  · exact .array (inside_of_blanks .list blanks elements)

theorem value_of_object {text rest : List Char} (parts : Frame.object.Parts true text rest) :
    Value ('\x7b' :: text) rest := by
  rcases parts with close | ⟨start, blanks, inside⟩
  · exact .emptyObject close
  · obtain ⟨members, inside⟩ := inside_of_blanks .object blanks inside
    exact .object inside

end Frame

theorem spans_of_skipName {text behind : List Char} (skipped : skipName text = .ok behind) :
    Spans (fun text rest => ∃ nameText name colonText, Blanks text ('"' :: nameText) ∧
      Name nameText name colonText ∧ Blanks colonText (':' :: rest)) text behind := by
  unfold skipName at skipped
  split at skipped
  · next nameText starts =>
      split at skipped
      · next colonText textSkipped =>
          have body := (spans_token starts).trans (spans_of_skipText textSkipped)
            fun quote body => (⟨_, quote, body⟩ : ∃ nameText, Blanks _ ('"' :: nameText) ∧
              StringBody nameText _)
          refine body.trans (spans_of_readColon skipped) ?_
          rintro _ _ _ ⟨nameText, quote, body⟩ colon
          obtain ⟨name, named⟩ := Name.of_body body
          exact ⟨nameText, name, _, quote, named, colon⟩
      · contradiction
  · contradiction
  · contradiction

/-! ## Passing over values -/

mutual

theorem spans_of_skipValue : (budget : Nat) → ∀ {text behind : List Char},
    skipValue budget text = .ok behind → Spans ValueAhead text behind
  | 0, _, _, skipped => by
      rw [skipValue] at skipped
      contradiction
  | budget + 1, text, behind, skipped => by
      have blanks := blanks_skipBlanks text
      rw [skipValue] at skipped
      split at skipped
      · contradiction
      · next char rest starts =>
          rw [starts] at blanks
          refine Spans.valueAhead ?_ blanks
          split at skipped
          · next same =>
              rw [same]
              exact (spans_of_skipParts budget .list skipped).cons '[' Frame.value_of_list
          split at skipped
          · next same =>
              rw [same]
              exact (spans_of_skipParts budget .object skipped).cons '\x7b' Frame.value_of_object
          · exact spans_of_skipScalar skipped

theorem spans_of_skipParts : (budget : Nat) → (frame : Frame) →
    ∀ {first : Bool} {text behind : List Char},
      skipParts budget frame first text = .ok behind → Spans (frame.Parts first) text behind
  | 0, _, _, _, _, skipped => by
      rw [skipParts] at skipped
      contradiction
  | budget + 1, frame, first, text, behind, skipped => by
      have blanks := blanks_skipBlanks text
      rw [skipParts] at skipped
      split at skipped
      · contradiction
      · next char rest starts =>
          rw [starts] at blanks
          split at skipped
          · next same =>
              rw [← Except.ok.inj skipped]
              rw [same] at starts
              exact (spans_token starts).mono .inl
          split at skipped
          · next isFirst =>
              rw [isFirst]
              exact (spans_blanks blanks).trans (spans_of_skipPart budget frame skipped)
                fun blanks inside => .inr ⟨_, blanks, inside⟩
          split at skipped
          · next notFirst same =>
              rw [eq_false_of_ne_true notFirst]
              rw [same] at starts
              exact (spans_token starts).trans (spans_of_skipPart budget frame skipped)
                fun comma inside => .inr ⟨_, ⟨_, comma, .refl _⟩, inside⟩
          · contradiction

theorem spans_of_skipPart : (budget : Nat) → (frame : Frame) → ∀ {text behind : List Char},
    skipPart budget frame text = .ok behind → Spans frame.Inside text behind
  | 0, _, _, _, skipped => by
      rw [skipPart] at skipped
      contradiction
  | budget + 1, .list, text, behind, skipped => by
      simp only [skipPart, bind, Except.bind] at skipped
      split at skipped
      · contradiction
      · next between valueSkipped =>
          exact (spans_of_skipValue budget valueSkipped).trans
            (spans_of_skipParts budget .list skipped) (Frame.inside_of_part .list)
  | budget + 1, .object, text, behind, skipped => by
      simp only [skipPart, bind, Except.bind] at skipped
      split at skipped
      · contradiction
      · next start named =>
          split at skipped
          · contradiction
          · next between valueSkipped =>
              have part : Spans Frame.object.Part text between :=
                (spans_of_skipName named).trans (spans_of_skipValue budget valueSkipped)
                  fun ⟨_, _, _, blanks, named, colon⟩ ⟨_, space, value⟩ =>
                    ⟨_, .intro blanks named colon space value⟩
              exact part.trans (spans_of_skipParts budget .object skipped)
                (Frame.inside_of_part .object)

end

end KeyStore.Json
