import KeyStore.Proofs.Json.Objects

/-!
# Records from arrays

An array may stand for a record: its elements give the fields their values in order. A record is
read from an object or from such an array, and from no other text.
-/

namespace KeyStore.Json

/-- The elements of an array, each with the text of its value, and the end of the array. -/
inductive Row : (elements : List (List Char)) → (text rest : List Char) → Prop
  | last {element text behind rest : List Char} (before : Blanks text (element ++ behind))
      (value : Value (element ++ behind) behind) (after : Blanks behind (']' :: rest)) :
      Row [element] text rest
  | more {element : List Char} {elements : List (List Char)} {text behind others rest : List Char}
      (before : Blanks text (element ++ behind)) (value : Value (element ++ behind) behind)
      (after : Blanks behind (',' :: others)) (later : Row elements others rest) :
      Row (element :: elements) text rest

/-- A text is a JSON array with these elements, apart from separators around it. -/
inductive ArrayText : (elements : List (List Char)) → (text : List Char) → Prop
  | empty {text start behind : List Char} (before : Blanks text ('[' :: start))
      (inside : Blanks start (']' :: behind)) (after : Blanks behind []) :
      ArrayText [] text
  | elements {elements : List (List Char)} {text start behind : List Char}
      (before : Blanks text ('[' :: start)) (inside : Row elements start behind)
      (after : Blanks behind []) :
      ArrayText elements text

theorem Value.exists_append {text rest : List Char} (value : Value text rest)
    (delimited : IsDelimited rest) :
    ∃ written, text = written ++ rest := by
  obtain ⟨written, same, _⟩ := spans_of_skip (value.skip_of_blanks (.refl _) delimited)
  exact ⟨written, same⟩

theorem exists_row_of_length_le (length : Nat) : ∀ {text rest : List Char},
    Elements text rest → text.length ≤ length → ∃ elements, Row elements text rest := by
  induction length with
  | zero =>
      intro text rest elements empty
      have filled := elements.length_lt
      omega
  | succ length inductionHypothesis =>
      intro text rest elements enough
      cases elements with
      | last before value after =>
          obtain ⟨element, rfl⟩ := value.exists_append (.of_blanks after (.inr (.inl rfl)))
          exact ⟨_, .last before value after⟩
      | more before value after later =>
          have shorter := before.length_le
          have behindValue := value.length_lt
          have behindComma := after.length_le
          rw [List.length_cons] at behindComma
          obtain ⟨texts, row⟩ := inductionHypothesis later (by omega)
          obtain ⟨element, rfl⟩ := value.exists_append (.of_blanks after (.inl rfl))
          exact ⟨_, .more before value after row⟩

theorem Elements.exists_row {text rest : List Char} (elements : Elements text rest) :
    ∃ texts, Row texts text rest :=
  exists_row_of_length_le text.length elements (Nat.le_refl _)

theorem Row.exists_ahead {elements : List (List Char)} {text rest : List Char}
    (row : Row elements text rest) :
    ∃ behind, ValueAhead text behind := by
  cases row with
  | last before value _ => exact ⟨_, _, before, value⟩
  | more before value _ _ => exact ⟨_, _, before, value⟩

theorem nextElement_of_ahead {text rest : List Char} (ahead : ValueAhead text rest) :
    nextElement true text = .ok (.part (skipBlanks text)) :=
  @nextElement_of_before true text text rest (Blanks.refl text) ahead

section Rows

variable {title : String} {sparse : Bool} {count : Nat}

theorem isDelimited_of_readArray {fields : Fields} {index : Nat} {values : fields.Data}
    {text behind : List Char}
    (read : fields.readArray title sparse count (index + 1) text = .ok (values, behind)) :
    IsDelimited text := by
  cases fields with
  | nil =>
      rw [Fields.readArray] at read
      split at read
      · next ended => exact .of_blanks (endList_eq_ok_iff.mp ended) (.inr (.inl rfl))
      · contradiction
  | cons field shape fields =>
      cases found : nextElement (index + 1 = 0) text with
      | error fault =>
          rw [Fields.readArray, found] at read
          contradiction
      | ok next =>
          have blanks := blanks_skipBlanks text
          rcases nextElement_cases found with ⟨rest, _, close⟩ | ⟨start, _, before⟩
          · rw [close] at blanks
            exact .of_blanks blanks (.inr (.inl rfl))
          · exact Before.isDelimited before.holds

/-- The first element of an array stands for the first field, and the others are read behind it. -/
theorem readArray_element_iff {field : String} {shape : Shape} {fields : Fields}
    (faithful : shape.IsFaithful) {element text behind start : List Char}
    (before : Blanks text (element ++ behind)) (holds : Value (element ++ behind) behind)
    (delimited : IsDelimited behind) {index : Nat}
    (next : nextElement (index = 0) start = nextElement true text)
    {values : (Fields.cons field shape fields).Data} {stop : List Char} :
    (Fields.cons field shape fields).readArray title sparse count index start =
        .ok (values, stop) ↔
      shape.parse (String.ofList element) = .ok values.1 ∧
        fields.readArray title sparse count (index + 1) behind = .ok (values.2, stop) := by
  have isReader := shape.isValueReader faithful
  have part := nextElement_of_ahead ⟨element, before, holds⟩
  have alone {value : shape.Datum} {stop : List Char} := @IsValueReader.read_iff _ shape.read
    isReader _ _ _ stop value before holds delimited
  rw [Fields.readArray, next, part]
  simp only [← isReader.of_blanks (blanks_skipBlanks text), Shape.parse_eq_ok_iff]
  constructor
  · intro read
    split at read
    · contradiction
    · next value between elementRead =>
        split at read
        · contradiction
        · next others rest othersRead =>
            obtain ⟨rfl, rfl⟩ := Prod.mk.inj (Except.ok.inj read)
            obtain ⟨rfl, isAlone⟩ :=
              alone.mp ⟨elementRead, isDelimited_of_readArray othersRead⟩
            exact ⟨isAlone, othersRead⟩
  · rintro ⟨isAlone, othersRead⟩
    simp only [(alone.mpr ⟨rfl, isAlone⟩).1, othersRead]
    rfl

theorem not_readArray_nil {index : Nat} {start text rest stop : List Char}
    {elements : List (List Char)} (row : Row elements text rest)
    (next : nextElement (index = 0) start = nextElement true text) {values : Fields.nil.Data} :
    Fields.nil.readArray title sparse count index start ≠ .ok (values, stop) := by
  obtain ⟨behind, ahead⟩ := row.exists_ahead
  rw [nextElement_of_ahead ahead] at next
  intro read
  rw [Fields.readArray] at read
  split at read
  · next ended =>
      rw [nextElement_of_close (endList_eq_ok_iff.mp ended)] at next
      injection next with impossible
      contradiction
  · contradiction

theorem Row.readArray_eq_ok_iff : (fields : Fields) → fields.IsFaithful →
    ∀ {elements : List (List Char)} {text rest : List Char}, Row elements text rest →
    ∀ {start : List Char} {index : Nat}, nextElement (index = 0) start = nextElement true text →
    ∀ {values : fields.Data} {stop : List Char},
      fields.readArray title sparse count index start = .ok (values, stop) ↔
        stop = rest ∧ fields.GivenInOrder sparse elements values
  | .nil, _, elements, text, rest, row, start, index, next, values, stop => by
      constructor
      · intro read
        exact absurd read (not_readArray_nil row next)
      · rintro ⟨_, impossible⟩
        cases row with
        | last => contradiction
        | more => contradiction
  | .cons field shape fields, ⟨shapeFaithful, _, faithful⟩, elements, text, rest, row, start, index,
      next, values, stop => by
      cases row with
      | last before value close =>
          rw [readArray_element_iff shapeFaithful before value (.of_blanks close (.inr (.inl rfl)))
            next, readArray_close_iff close]
          constructor
          · rintro ⟨first, atEnd, others⟩
            exact ⟨atEnd, first, others⟩
          · rintro ⟨atEnd, first, others⟩
            exact ⟨first, atEnd, others⟩
      | @more _ _ _ behind othersText _ before value comma later =>
          have nextOther :
              nextElement (index + 1 = 0) behind = nextElement true othersText := by
            obtain ⟨otherBehind, ahead⟩ := later.exists_ahead
            have beforeOther : Before false behind othersText := ⟨othersText, comma, .refl _⟩
            exact (nextElement_of_before beforeOther ahead).trans (nextElement_of_ahead ahead).symm
          rw [readArray_element_iff shapeFaithful before value (.of_blanks comma (.inl rfl)) next,
            Row.readArray_eq_ok_iff fields faithful later nextOther]
          constructor
          · rintro ⟨first, atEnd, others⟩
            exact ⟨atEnd, first, others⟩
          · rintro ⟨atEnd, first, others⟩
            exact ⟨first, atEnd, others⟩

end Rows

section Records

variable {title : String} {sparse : Bool} {fields : Fields}

/-- A record that is read from an array has what the elements give its fields in order. -/
theorem ArrayText.parse_eq_ok_iff (faithful : fields.IsFaithful) {elements : List (List Char)}
    {text : List Char} (array : ArrayText elements text) {data : fields.Data} :
    (Shape.record title sparse fields).parse (String.ofList text) = .ok data ↔
      fields.GivenInOrder sparse elements data := by
  have ofRow {behind : List Char} (blank : Blanks behind [])
      (reads : ∀ {stop : List Char}, (Shape.record title sparse fields).read text =
        .ok (data, stop) ↔ stop = behind ∧ fields.GivenInOrder sparse elements data) :
      (∃ stop, (Shape.record title sparse fields).read text = .ok (data, stop) ∧ Blanks stop []) ↔
        fields.GivenInOrder sparse elements data := by
    simp only [reads]
    constructor
    · rintro ⟨_, ⟨_, given⟩, _⟩
      exact given
    · intro given
      exact ⟨behind, ⟨rfl, given⟩, blank⟩
  refine Shape.parse_eq_ok_iff.trans ?_
  cases array with
  | empty opens inside blank =>
      refine ofRow blank ?_
      rw [read_row (opens.ends_at (by decide))]
      exact readArray_close_iff inside fields
  | elements opens inside blank =>
      refine ofRow blank ?_
      rw [read_row (opens.ends_at (by decide))]
      exact Row.readArray_eq_ok_iff fields faithful inside rfl

theorem exists_form_of_parse_record (faithful : fields.IsFaithful) {text : List Char}
    {data : fields.Data}
    (parsed : (Shape.record title sparse fields).parse (String.ofList text) = .ok data) :
    (∃ members, ObjectText members text) ∨ ∃ elements, ArrayText elements text := by
  obtain ⟨stop, read, blank⟩ := Shape.parse_eq_ok_iff.mp parsed
  have blanks := blanks_skipBlanks text
  rcases opens_of_read_record read with ⟨start, opens⟩ | ⟨start, opens⟩
  · rw [opens] at blanks
    rw [read_row opens] at read
    rcases (fields.spans_of_readArray faithful read).holds.1 with close | ⟨first, before, elements⟩
    · exact .inr ⟨[], .empty blanks close blank⟩
    · obtain ⟨elements, row⟩ := (Frame.inside_of_blanks .list before elements).exists_row
      exact .inr ⟨elements, .elements blanks row blank⟩
  · rw [opens] at blanks
    obtain ⟨after, _, parts⟩ := spans_of_read_object (fields.isMemberReader faithful) opens read
    rcases parts.holds.1 with close | ⟨first, before, inside⟩
    · exact .inl ⟨[], .empty blanks close blank⟩
    · obtain ⟨members, parts⟩ := Frame.inside_of_blanks .object before inside
      exact .inl ⟨members, .members blanks parts blank⟩

/-- The texts of a record are objects whose members give its fields, and arrays whose elements
do. -/
theorem parse_record_eq_ok_iff (faithful : fields.IsFaithful) {text : List Char}
    {data : fields.Data} :
    (Shape.record title sparse fields).parse (String.ofList text) = .ok data ↔
      (∃ members, ObjectText (listed members) text ∧ fields.GivenBy sparse members data) ∨
        ∃ elements, ArrayText elements text ∧ fields.GivenInOrder sparse elements data := by
  constructor
  · intro parsed
    rcases exists_form_of_parse_record faithful parsed with ⟨members, object⟩ | ⟨elements, array⟩
    · obtain ⟨named, rfl, given⟩ := (object.parse_eq_ok_iff faithful).mp parsed
      exact .inl ⟨named, object, given⟩
    · exact .inr ⟨elements, array, (array.parse_eq_ok_iff faithful).mp parsed⟩
  · rintro (⟨members, object, given⟩ | ⟨elements, array, given⟩)
    · exact (object.parse_listed_iff faithful).mpr given
    · exact (array.parse_eq_ok_iff faithful).mpr given

end Records

end KeyStore.Json
