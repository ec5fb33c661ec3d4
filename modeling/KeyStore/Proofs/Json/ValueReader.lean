import KeyStore.Json.Shape
import KeyStore.Proofs.Json.RoundTrip
import KeyStore.Proofs.Json.Spans
import KeyStore.Proofs.Json.WrittenForm
import KeyStore.Proofs.Outcomes

/-!
# Reading takes one value

What a shape reads from the start of a text is one JSON value, and it is read the same wherever it
stands. So a value inside an object or an array is read as it is read alone. This module has the
notion and the shapes whose values have no parts.
-/

namespace KeyStore.Json

section Readers

variable {α : Type}

/-- A value comes next, and it is read as `value` if it ends there. -/
def ReadsAs (reader : List Char → Except Fault (α × List Char)) (value : α)
    (text rest : List Char) : Prop :=
  ValueAhead text rest ∧ (IsDelimited rest → reader text = .ok (value, rest))

/-- A reader takes one value, and takes no notice of blanks in front of it. -/
structure IsValueReader (reader : List Char → Except Fault (α × List Char)) : Prop where
  of_blanks : ∀ {text start : List Char}, Blanks text start → reader text = reader start
  spans : ∀ {text behind : List Char} {value : α},
    reader text = .ok (value, behind) → Spans (ReadsAs reader value) text behind

variable {reader : List Char → Except Fault (α × List Char)}

theorem IsDelimited.of_blanks_append {separators rest : List Char}
    (allSeparators : ∀ char ∈ separators, isSeparator char = true) (delimited : IsDelimited rest) :
    IsDelimited (separators ++ rest) := by
  cases separators with
  | nil => exact delimited
  | cons separator others =>
      intro first member
      rw [List.cons_append, List.head?_cons, Option.mem_some_iff] at member
      rw [← member]
      exact .inl (allSeparators separator List.mem_cons_self)

theorem IsValueReader.read_iff (isReader : IsValueReader reader)
    {text written rest behind : List Char} {value : α}
    (blanks : Blanks text (written ++ rest)) (holds : Value (written ++ rest) rest)
    (delimited : IsDelimited rest) :
    reader text = .ok (value, behind) ∧ IsDelimited behind ↔
      behind = rest ∧ ∃ stop, reader written = .ok (value, stop) ∧ Blanks stop [] := by
  have skipped := holds.skip_of_blanks (.refl _) delimited
  rw [isReader.of_blanks blanks]
  constructor
  · rintro ⟨read, behindDelimited⟩
    have spans := isReader.spans read
    -- Both ends are where the value is passed over.
    have same := spans.holds.1.skip_eq behindDelimited
    rw [skipped] at same
    obtain rfl := Except.ok.inj same
    obtain ⟨used, sameText, anywhere⟩ := spans
    obtain rfl := List.append_cancel_right sameText
    have alone := (anywhere []).2 IsDelimited.nil
    rw [List.append_nil] at alone
    exact ⟨rfl, [], alone, .refl _⟩
  · rintro ⟨rfl, stop, read, separators, allSeparators, rfl⟩
    obtain ⟨used, rfl, anywhere⟩ := isReader.spans read
    rw [List.append_nil, List.append_assoc] at skipped ⊢
    -- The value ends where it is passed over, so no blanks are left of it.
    have same := (anywhere (separators ++ behind)).1.skip_eq
      (.of_blanks_append allSeparators delimited)
    rw [skipped] at same
    rw [← Except.ok.inj same]
    exact ⟨(anywhere behind).2 delimited, delimited⟩

theorem spans_of_word {word text behind : List Char} {value : α}
    (blanks : Blanks text (word ++ behind)) (holds : ∀ rest, Value (word ++ rest) rest)
    (reads : ∀ {text rest}, Blanks text (word ++ rest) → IsDelimited rest →
      reader text = .ok (value, rest)) :
    Spans (ReadsAs reader value) text behind := by
  refine Spans.and ?_ ?_
  · exact (Spans.of_used word holds).valueAhead blanks
  · exact (spans_word word blanks).mono reads

end Readers

theorem wrongKind_ne_ok {α : Type} (expected : String) (text : List Char) (found : α) :
    wrongKind expected text ≠ .ok found := by
  unfold wrongKind
  repeat' split
  all_goals
    intro impossible
    contradiction

theorem isValueReader_text : IsValueReader Shape.text.read := by
  constructor
  · intro text start blanks
    rw [Shape.read, Shape.read, readString, readString, blanks.skipBlanks_eq]
  · intro text behind value read
    rw [Shape.read, readString] at read
    split at read
    · next chars stop found =>
        obtain ⟨rfl, rfl⟩ := Prod.mk.inj (Except.ok.inj read)
        split at found
        · next rest starts =>
            have form := readText_eq_ok_iff.mp found
            have body := form.spans.mono StringForm.body
            refine Spans.and ((body.cons '"' .string).valueAhead ?_) ?_
            · rw [← starts]
              exact blanks_skipBlanks text
            · refine (spans_token starts).trans form.spans fun quote form _ => ?_
              rw [Shape.read, readString, quote.ends_at (by decide)]
              simp only [readText_of_form form]
        · exact absurd found (wrongKind_ne_ok _ _ _)
    · contradiction

theorem isValueReader_flag : IsValueReader Shape.flag.read := by
  constructor
  · intro text start blanks
    rw [Shape.read, Shape.read, readFlag, readFlag, blanks.skipBlanks_eq]
  · intro text behind value read
    have blanks := blanks_skipBlanks text
    rw [Shape.read, readFlag] at read
    split at read
    · next rest starts =>
        split at read
        · next stop ident =>
            obtain ⟨rfl, rfl⟩ := Prod.mk.inj (Except.ok.inj read)
            rw [starts, eq_append_of_readIdent ident] at blanks
            refine @spans_of_word _ _ ['t', 'r', 'u', 'e'] _ _ _ blanks .trueLiteral ?_
            intro text rest word _
            rw [Shape.read, readFlag, word.ends_at (by decide)]
            rfl
        · contradiction
    · next rest starts =>
        split at read
        · next stop ident =>
            obtain ⟨rfl, rfl⟩ := Prod.mk.inj (Except.ok.inj read)
            rw [starts, eq_append_of_readIdent ident] at blanks
            refine @spans_of_word _ _ ['f', 'a', 'l', 's', 'e'] _ _ _ blanks .falseLiteral ?_
            intro text rest word _
            rw [Shape.read, readFlag, word.ends_at (by decide)]
            rfl
        · contradiction
    · exact absurd read (wrongKind_ne_ok _ _ _)

theorem eq_natural_of_countOfNumber {name : String} {bound : Nat} {number : Number}
    {rest behind : List Char} {value : Fin bound}
    (counted : countOfNumber name bound number rest = .ok (value, behind)) :
    number = .natural value.val ∧ rest = behind := by
  unfold countOfNumber at counted
  split at counted
  · split at counted
    · obtain ⟨rfl, rfl⟩ := Prod.mk.inj (Except.ok.inj counted)
      exact ⟨rfl, rfl⟩
    · contradiction
  · contradiction
  · contradiction

theorem blanks_toDigits_of_readCount {name : String} {bound : Nat} {text behind : List Char}
    {value : Fin bound} (read : readCount name bound text = .ok (value, behind)) :
    Blanks text (Nat.toDigits 10 value.val ++ behind) := by
  have blanks := blanks_skipBlanks text
  unfold readCount at read
  split at read
  · contradiction
  · next char rest starts =>
      rw [starts] at blanks
      split at read
      · split at read
        · next found =>
            obtain ⟨rfl, rfl⟩ := eq_natural_of_countOfNumber read
            exact absurd (eq_toDigits_of_readNumber found).1 (by decide)
        · contradiction
      split at read
      · split at read
        · next found =>
            obtain ⟨rfl, rfl⟩ := eq_natural_of_countOfNumber read
            rw [(eq_toDigits_of_readNumber found).2] at blanks
            exact blanks
        · contradiction
      · exact absurd read (wrongKind_ne_ok _ _ _)

theorem isValueReader_count (name : String) {bound : Nat} (small : bound ≤ UInt64.size) :
    IsValueReader (Shape.count name bound).read := by
  have passes {text start : List Char} (blanks : Blanks text start) :
      (Shape.count name bound).read text = (Shape.count name bound).read start := by
    rw [Shape.read, Shape.read, readCount, readCount, blanks.skipBlanks_eq]
  constructor
  · exact passes
  · intro text behind value read
    rw [Shape.read] at read
    have blanks := blanks_toDigits_of_readCount read
    refine spans_of_word blanks (fun rest => .positive (unsigned_toDigits _ rest)) ?_
    intro text rest word delimited
    rw [passes word, Shape.read]
    -- Digits behind the number would belong to it, so what follows has to delimit it.
    exact readCount_toDigits name small value delimited

theorem choiceOfTag_eq_ok {tags : List String} {tag behind stop : List Char}
    {index : Fin tags.length} (found : choiceOfTag tags tag behind = .ok (index, stop)) :
    behind = stop ∧ ∀ rest, choiceOfTag tags tag rest = .ok (index, rest) := by
  unfold choiceOfTag at found
  split at found
  · next position isPosition =>
      obtain ⟨rfl, rfl⟩ := Prod.mk.inj (Except.ok.inj found)
      refine ⟨rfl, fun rest => ?_⟩
      rw [choiceOfTag, isPosition]
  · contradiction

/-- An object whose only member has the tag as its name and holds nothing. -/
def OnlyMember (tag text rest : List Char) : Prop :=
  ∃ nameText colonText before behind, Blanks text ('"' :: nameText) ∧
    StringForm nameText tag colonText ∧ Blanks colonText (':' :: before) ∧
    Blanks before (['n', 'u', 'l', 'l'] ++ behind) ∧ Blanks behind ('\x7d' :: rest)

theorem OnlyMember.value {tag text rest : List Char} (only : OnlyMember tag text rest) :
    Value ('\x7b' :: text) rest := by
  obtain ⟨nameText, colonText, before, behind, quote, form, colon, null, close⟩ := only
  exact .object (.last (.intro quote (.spelled form) colon null (.nullLiteral behind)) close)

theorem readChoice_of_only {tags : List String} {tag text start rest : List Char}
    {index : Fin tags.length} (opens : Blanks text ('\x7b' :: start))
    (only : OnlyMember tag start rest)
    (known : ∀ rest, choiceOfTag tags tag rest = .ok (index, rest)) :
    readChoice tags text = .ok (index, rest) := by
  obtain ⟨nameText, colonText, before, behind, quote, form, colon, null, close⟩ := only
  have named : readOnlyName start = .ok (tag, colonText) := by
    rw [readOnlyName, quote.ends_at (by decide)]
    exact readText_of_form form
  have colonRead : readColon colonText = .ok before := by
    rw [readColon, colon.ends_at (by decide)]
    rfl
  have nullRead : readNull before = .ok behind := by
    rw [readNull, null.ends_at (by decide)]
    rfl
  rw [readChoice, opens.ends_at (by decide)]
  simp only [show ('\x7b' : Char) ≠ '"' by decide, if_false, if_true, bind, Except.bind, named,
    known, colonRead, nullRead, close.ends_at (show isSeparator '\x7d' = false by decide)]
  rfl

theorem spans_of_only {tag start colonText before behind rest : List Char}
    (named : readOnlyName start = .ok (tag, colonText)) (colon : readColon colonText = .ok before)
    (null : readNull before = .ok behind) (close : skipBlanks behind = '\x7d' :: rest) :
    Spans (OnlyMember tag) start rest := by
  unfold readOnlyName at named
  split at named
  · contradiction
  · next char nameStart starts =>
      split at named
      · next quote =>
          rw [quote] at starts
          have blanks := blanks_skipBlanks before
          unfold readNull at null
          split at null
          · next identStart identStarts =>
              rw [identStarts, eq_append_of_readIdent null] at blanks
              have named := (spans_token starts).trans (readText_eq_ok_iff.mp named).spans
                fun quote form => (⟨_, quote, form⟩ : ∃ nameText, Blanks _ ('"' :: nameText) ∧
                  StringForm nameText tag _)
              obtain ⟨nameUsed, rfl, nameHolds⟩ := named
              obtain ⟨colonUsed, rfl, colonHolds⟩ := spans_of_readColon colon
              obtain ⟨nullUsed, rfl, nullHolds⟩ := spans_word ['n', 'u', 'l', 'l'] blanks
              obtain ⟨closeUsed, rfl, closeHolds⟩ := spans_token close
              refine ⟨nameUsed ++ colonUsed ++ nullUsed ++ closeUsed, ?_, fun rest => ?_⟩
              · simp only [List.append_assoc]
              · obtain ⟨nameText, quote, form⟩ :=
                  nameHolds (colonUsed ++ (nullUsed ++ (closeUsed ++ rest)))
                simp only [List.append_assoc]
                exact ⟨nameText, _, _, _, quote, form, colonHolds _, nullHolds _, closeHolds rest⟩
          · exact absurd null (wrongKind_ne_ok _ _ _)
      split at named
      · contradiction
      · contradiction

theorem isValueReader_choice (tags : List String) : IsValueReader (Shape.choice tags).read := by
  constructor
  · intro text start blanks
    rw [Shape.read, Shape.read, readChoice, readChoice, blanks.skipBlanks_eq]
  · intro text behind index read
    have blanks := blanks_skipBlanks text
    rw [Shape.read, readChoice] at read
    split at read
    · contradiction
    · next char start starts =>
        rw [starts] at blanks
        split at read
        · next quote =>
            rw [quote] at starts blanks
            obtain ⟨⟨tag, stop⟩, textRead, chosen⟩ := exists_of_bind_eq_ok read
            obtain ⟨rfl, known⟩ := choiceOfTag_eq_ok chosen
            have form := readText_eq_ok_iff.mp textRead
            have body := form.spans.mono StringForm.body
            refine Spans.and ((body.cons '"' .string).valueAhead blanks) ?_
            refine (spans_token starts).trans form.spans fun quote form _ => ?_
            rw [Shape.read, readChoice, quote.ends_at (by decide)]
            simp only [if_true, bind, Except.bind, readText_of_form form, known]
            rfl
        split at read
        · next brace =>
            rw [brace] at starts blanks
            obtain ⟨⟨tag, colonText⟩, named, read⟩ := exists_of_bind_eq_ok read
            obtain ⟨⟨choice, stop⟩, chosen, read⟩ := exists_of_bind_eq_ok read
            obtain ⟨rfl, known⟩ := choiceOfTag_eq_ok chosen
            obtain ⟨before, colon, read⟩ := exists_of_bind_eq_ok read
            obtain ⟨stop, null, read⟩ := exists_of_bind_eq_ok read
            split at read
            · next close =>
                obtain ⟨rfl, rfl⟩ := Prod.mk.inj (Except.ok.inj read)
                have only := spans_of_only named colon null close
                refine Spans.and ((only.cons '\x7b' OnlyMember.value).valueAhead blanks) ?_
                exact (spans_token starts).trans only fun opens only _ =>
                  readChoice_of_only opens only known
            · contradiction
            · contradiction
        · contradiction

end KeyStore.Json
