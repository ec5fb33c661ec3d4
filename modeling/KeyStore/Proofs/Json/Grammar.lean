import KeyStore.Json.Skip

/-!
# The grammar of JSON

Which texts are JSON values, said without a reader. Every relation takes a text and what is left of
it: `Value text rest` says that `text` is a JSON value followed by `rest`. Strings have two
relations. `StringBody` is the grammar, in which an escape may name half of a surrogate pair;
`StringForm` says in addition which characters a string stands for, and a string with half a
surrogate pair stands for none.
-/

namespace KeyStore.Json

def Blanks (text rest : List Char) : Prop :=
  ∃ blanks : List Char, (∀ char ∈ blanks, isSeparator char = true) ∧ text = blanks ++ rest

/-- What may follow a value: the end, a separator, a comma or a closing bracket. -/
def IsDelimited (rest : List Char) : Prop :=
  ∀ char ∈ rest.head?, isSeparator char = true ∨ char = ',' ∨ char = ']' ∨ char = '\x7d'

theorem Blanks.refl (text : List Char) : Blanks text text :=
  ⟨[], List.forall_mem_nil _, rfl⟩

theorem Blanks.skipBlanks_eq {text rest : List Char} (blanks : Blanks text rest) :
    skipBlanks text = skipBlanks rest := by
  obtain ⟨separators, allSeparators, rfl⟩ := blanks
  exact List.dropWhile_append_of_pos allSeparators

theorem skipBlanks_cons {char : Char} (notSeparator : isSeparator char = false)
    (rest : List Char) :
    skipBlanks (char :: rest) = char :: rest := by
  rw [skipBlanks, List.dropWhile_cons_of_neg (by simp [notSeparator])]

theorem Blanks.ends_at {text rest : List Char} {char : Char} (blanks : Blanks text (char :: rest))
    (notSeparator : isSeparator char = false) :
    skipBlanks text = char :: rest := by
  rw [blanks.skipBlanks_eq, skipBlanks_cons notSeparator]

theorem Blanks.length_le {text rest : List Char} (blanks : Blanks text rest) :
    rest.length ≤ text.length := by
  obtain ⟨separators, _, rfl⟩ := blanks
  rw [List.length_append]
  exact Nat.le_add_left rest.length separators.length

theorem IsDelimited.of_blanks {text rest : List Char} {char : Char}
    (blanks : Blanks text (char :: rest))
    (delimits : char = ',' ∨ char = ']' ∨ char = '\x7d') :
    IsDelimited text := by
  obtain ⟨separators, allSeparators, rfl⟩ := blanks
  intro first member
  cases separators with
  | nil =>
      rw [List.nil_append, List.head?_cons, Option.mem_some_iff] at member
      rw [← member]
      exact .inr delimits
  | cons separator others =>
      rw [List.cons_append, List.head?_cons, Option.mem_some_iff] at member
      rw [← member]
      exact .inl (allSeparators separator List.mem_cons_self)

/-- One character of a string: by itself, as an escape of one letter, by its number, or by the
numbers of a surrogate pair. -/
inductive CharForm : (text : List Char) → (char : Char) → (rest : List Char) → Prop
  | plain {char : Char} (rest : List Char) (notQuote : char ≠ '"') (notBackslash : char ≠ '\\')
      (printable : 0x20 ≤ char.toNat) :
      CharForm (char :: rest) char rest
  | letter {letter char : Char} (rest : List Char) (known : escaped? letter = some char) :
      CharForm ('\\' :: letter :: rest) char rest
  | code {text rest : List Char} {number : Nat} (digits : hexNumber? text = some (number, rest))
      (notHigh : ¬IsHighSurrogate number) (notLow : ¬IsLowSurrogate number) :
      CharForm ('\\' :: 'u' :: text) (Char.ofNat number) rest
  | pair {text behind rest : List Char} {high low : Nat}
      (first : hexNumber? text = some (high, '\\' :: 'u' :: behind))
      (isHigh : IsHighSurrogate high) (second : hexNumber? behind = some (low, rest))
      (isLow : IsLowSurrogate low) :
      CharForm ('\\' :: 'u' :: text)
        (Char.ofNat (0x10000 + (high - 0xd800) * 0x400 + (low - 0xdc00))) rest

/-- A string that stands for characters, from behind its opening quote on. -/
inductive StringForm : (text chars rest : List Char) → Prop
  | close (rest : List Char) : StringForm ('"' :: rest) [] rest
  | next {char : Char} {chars text behind rest : List Char} (first : CharForm text char behind)
      (later : StringForm behind chars rest) :
      StringForm text (char :: chars) rest

/-- Any string of the grammar, from behind its opening quote on. -/
inductive StringBody : (text rest : List Char) → Prop
  | close (rest : List Char) : StringBody ('"' :: rest) rest
  | plain {char : Char} {text rest : List Char} (notQuote : char ≠ '"')
      (notBackslash : char ≠ '\\') (printable : 0x20 ≤ char.toNat)
      (later : StringBody text rest) :
      StringBody (char :: text) rest
  | letter {letter : Char} {text rest : List Char} (known : (escaped? letter).isSome)
      (later : StringBody text rest) :
      StringBody ('\\' :: letter :: text) rest
  | code {text behind rest : List Char} {number : Nat}
      (digits : hexNumber? text = some (number, behind))
      (later : StringBody behind rest) :
      StringBody ('\\' :: 'u' :: text) rest

inductive Digits : (text rest : List Char) → Prop
  | last {char : Char} (rest : List Char) (digit : isDigit char = true) :
      Digits (char :: rest) rest
  | more {char : Char} {text rest : List Char} (digit : isDigit char = true)
      (later : Digits text rest) :
      Digits (char :: text) rest

/-- The whole part of a number, which starts with zero only if it is zero. -/
inductive Whole : (text rest : List Char) → Prop
  | zero (rest : List Char) : Whole ('0' :: rest) rest
  | single {char : Char} (rest : List Char) (digit : isDigit char = true) (notZero : char ≠ '0') :
      Whole (char :: rest) rest
  | several {char : Char} {text rest : List Char} (digit : isDigit char = true)
      (notZero : char ≠ '0') (later : Digits text rest) :
      Whole (char :: text) rest

inductive Fraction : (text rest : List Char) → Prop
  | absent (rest : List Char) : Fraction rest rest
  | present {text rest : List Char} (digits : Digits text rest) : Fraction ('.' :: text) rest

inductive Exponent : (text rest : List Char) → Prop
  | absent (rest : List Char) : Exponent rest rest
  | plain {letter : Char} {text rest : List Char} (isLetter : letter = 'e' ∨ letter = 'E')
      (digits : Digits text rest) :
      Exponent (letter :: text) rest
  | signed {letter sign : Char} {text rest : List Char} (isLetter : letter = 'e' ∨ letter = 'E')
      (isSign : sign = '+' ∨ sign = '-') (digits : Digits text rest) :
      Exponent (letter :: sign :: text) rest

def Unsigned (text rest : List Char) : Prop :=
  ∃ point letter, Whole text point ∧ Fraction point letter ∧ Exponent letter rest

/-- The name of a member, from behind its opening quote on. A name with half a surrogate pair is
the name of no text. -/
inductive Name : (text : List Char) → (name : Option String) → (rest : List Char) → Prop
  | spelled {text chars rest : List Char} (form : StringForm text chars rest) :
      Name text (some (String.ofList chars)) rest
  | broken {text rest : List Char} (body : StringBody text rest)
      (noForm : ∀ chars behind, ¬StringForm text chars behind) :
      Name text none rest

mutual

inductive Value : (text rest : List Char) → Prop
  | nullLiteral (rest : List Char) : Value ('n' :: 'u' :: 'l' :: 'l' :: rest) rest
  | trueLiteral (rest : List Char) : Value ('t' :: 'r' :: 'u' :: 'e' :: rest) rest
  | falseLiteral (rest : List Char) : Value ('f' :: 'a' :: 'l' :: 's' :: 'e' :: rest) rest
  | positive {text rest : List Char} (number : Unsigned text rest) : Value text rest
  | negative {text rest : List Char} (number : Unsigned text rest) : Value ('-' :: text) rest
  | string {text rest : List Char} (body : StringBody text rest) : Value ('"' :: text) rest
  | emptyArray {text rest : List Char} (blanks : Blanks text (']' :: rest)) :
      Value ('[' :: text) rest
  | array {text rest : List Char} (elements : Elements text rest) : Value ('[' :: text) rest
  | emptyObject {text rest : List Char} (blanks : Blanks text ('\x7d' :: rest)) :
      Value ('\x7b' :: text) rest
  | object {text rest : List Char} {members : List (Option String × List Char)}
      (parts : Members members text rest) :
      Value ('\x7b' :: text) rest

inductive Elements : (text rest : List Char) → Prop
  | last {text start behind rest : List Char} (before : Blanks text start)
      (value : Value start behind) (after : Blanks behind (']' :: rest)) :
      Elements text rest
  | more {text start behind others rest : List Char} (before : Blanks text start)
      (value : Value start behind) (after : Blanks behind (',' :: others))
      (later : Elements others rest) :
      Elements text rest

/-- The members of an object, each with its name and the text of its value, and the end of the
object. -/
inductive Members :
    (members : List (Option String × List Char)) → (text rest : List Char) → Prop
  | last {member : Option String × List Char} {text behind rest : List Char}
      (part : Member member text behind) (after : Blanks behind ('\x7d' :: rest)) :
      Members [member] text rest
  | more {member : Option String × List Char} {members : List (Option String × List Char)}
      {text behind others rest : List Char} (part : Member member text behind)
      (after : Blanks behind (',' :: others)) (later : Members members others rest) :
      Members (member :: members) text rest

inductive Member : (member : Option String × List Char) → (text rest : List Char) → Prop
  | intro {name : Option String} {value text nameText colonText before rest : List Char}
      (blanks : Blanks text ('"' :: nameText)) (named : Name nameText name colonText)
      (colon : Blanks colonText (':' :: before)) (space : Blanks before (value ++ rest))
      (holds : Value (value ++ rest) rest) :
      Member (name, value) text rest

end

/-- A text is a JSON object with these members, apart from separators around it. -/
inductive ObjectText : (members : List (Option String × List Char)) → (text : List Char) → Prop
  | empty {text start behind : List Char} (before : Blanks text ('\x7b' :: start))
      (inside : Blanks start ('\x7d' :: behind)) (after : Blanks behind []) :
      ObjectText [] text
  | members {members : List (Option String × List Char)} {text start behind : List Char}
      (before : Blanks text ('\x7b' :: start))
      (inside : Members members start behind) (after : Blanks behind []) :
      ObjectText members text

end KeyStore.Json
