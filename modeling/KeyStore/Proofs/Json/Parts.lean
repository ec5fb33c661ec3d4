import KeyStore.Proofs.Json.Members
import KeyStore.Proofs.Json.ValueReader

/-!
# Arrays and objects are read part by part

An array, and an object read as a record, are JSON values whose parts are read one after the other.
By induction on shapes every shape reads one value and takes no notice of what surrounds it.
-/

namespace KeyStore.Json

theorem Before.length_le {first : Bool} {text start : List Char}
    (before : Before first text start) :
    start.length ≤ text.length := by
  cases first with
  | true => exact Blanks.length_le before
  | false =>
      obtain ⟨others, comma, blanks⟩ := before
      have behindComma := comma.length_le
      rw [List.length_cons] at behindComma
      exact Nat.le_trans blanks.length_le (Nat.le_of_succ_le behindComma)

theorem Before.isDelimited {text start : List Char} (before : Before false text start) :
    IsDelimited text := by
  obtain ⟨others, comma, _⟩ := before
  exact .of_blanks comma (.inl rfl)

theorem Frame.Parts.isDelimited {frame : Frame} {text rest : List Char}
    (parts : frame.Parts false text rest) :
    IsDelimited text := by
  rcases parts with close | ⟨start, before, _⟩
  · cases frame with
    | list => exact .of_blanks close (.inr (.inl rfl))
    | object => exact .of_blanks close (.inr (.inr rfl))
  · exact before.isDelimited

theorem spans_before_first {text start : List Char} (word : List Char)
    (blanks : Blanks text (word ++ start)) :
    Spans (fun text rest => Before true text (word ++ rest)) text start :=
  spans_word word blanks

theorem spans_before_later {text others start : List Char} (word : List Char)
    (comma : skipBlanks text = ',' :: others) (blanks : Blanks others (word ++ start)) :
    Spans (fun text rest => Before false text (word ++ rest)) text start :=
  (spans_token comma).trans (spans_word word blanks) fun comma blanks => ⟨_, comma, blanks⟩

theorem nextElement_cases {first : Bool} {text : List Char} {next : Next}
    (found : nextElement first text = .ok next) :
    (∃ rest, next = .close (']' :: rest) ∧ skipBlanks text = ']' :: rest) ∨
      ∃ start, next = .part start ∧ Spans (Before first) text start := by
  have blanks := blanks_skipBlanks text
  unfold nextElement at found
  split at found
  · contradiction
  · next char rest starts =>
      rw [starts] at blanks
      split at found
      · next same =>
          rw [← Except.ok.inj found, same]
          exact .inl ⟨rest, rfl, same ▸ starts⟩
      split at found
      · next isFirst =>
          rw [← Except.ok.inj found, isFirst]
          exact .inr ⟨_, rfl, spans_before_first [] blanks⟩
      split at found
      · next notFirst same =>
          rw [same] at starts
          have blanks := blanks_skipBlanks rest
          split at found
          · contradiction
          · next char behind behindStarts =>
              rw [behindStarts] at blanks
              split at found
              · contradiction
              · rw [← Except.ok.inj found, eq_false_of_ne_true notFirst]
                exact .inr ⟨_, rfl, spans_before_later [] starts blanks⟩
      · contradiction

theorem nextElement_of_close {text rest : List Char} (blanks : Blanks text (']' :: rest))
    (first : Bool) :
    nextElement first text = .ok (.close (']' :: rest)) := by
  rw [nextElement, blanks.ends_at (by decide)]
  rfl

theorem nextElement_of_before {first : Bool} {text start rest : List Char}
    (before : Before first text start) (ahead : ValueAhead start rest) :
    nextElement first text = .ok (.part (skipBlanks start)) := by
  obtain ⟨written, blanks, value⟩ := ahead
  obtain ⟨char, behind, same, notSeparator, notClose⟩ := value.exists_cons
  rw [same] at blanks
  have starts := blanks.ends_at notSeparator
  cases first with
  | true =>
      rw [nextElement, Blanks.skipBlanks_eq before, starts]
      simp only [notClose, if_false, if_true]
  | false =>
      obtain ⟨others, comma, space⟩ := before
      rw [nextElement, comma.ends_at (by decide)]
      simp only [show (',' : Char) ≠ ']' by decide, if_false, if_true, Bool.false_eq_true,
        space.skipBlanks_eq, starts, notClose]

theorem endList_eq_ok_iff {text rest : List Char} :
    endList text = .ok rest ↔ Blanks text (']' :: rest) := by
  constructor
  · intro ended
    have blanks := blanks_skipBlanks text
    unfold endList at ended
    split at ended
    · contradiction
    · next char behind starts =>
        rw [starts] at blanks
        split at ended
        · next same =>
            rw [← Except.ok.inj ended, ← same]
            exact blanks
        split at ended
        · split at ended
          · split at ended
            · contradiction
            · contradiction
          · contradiction
        · contradiction
  · intro blanks
    rw [endList, blanks.ends_at (by decide)]
    rfl

theorem nextMember_cases {first : Bool} {text : List Char} {next : Next}
    (found : nextMember first text = .ok next) :
    (∃ rest, next = .close ('\x7d' :: rest) ∧ skipBlanks text = '\x7d' :: rest) ∨
      ∃ start, next = .part start ∧
        Spans (fun text rest => Before first text ('"' :: rest)) text start := by
  have blanks := blanks_skipBlanks text
  unfold nextMember at found
  split at found
  · contradiction
  · next char rest starts =>
      rw [starts] at blanks
      split at found
      · next same =>
          rw [← Except.ok.inj found, same]
          exact .inl ⟨rest, rfl, same ▸ starts⟩
      split at found
      · next isFirst =>
          split at found
          · next same =>
              rw [← Except.ok.inj found, isFirst]
              exact .inr ⟨_, rfl, spans_before_first ['"'] (same ▸ blanks)⟩
          · contradiction
      split at found
      · next notFirst same =>
          rw [same] at starts
          have blanks := blanks_skipBlanks rest
          split at found
          · contradiction
          · next char behind behindStarts =>
              rw [behindStarts] at blanks
              split at found
              · next quote =>
                  rw [← Except.ok.inj found, eq_false_of_ne_true notFirst]
                  exact .inr ⟨_, rfl, spans_before_later ['"'] starts (quote ▸ blanks)⟩
              split at found
              · contradiction
              · contradiction
      · contradiction

theorem nextMember_of_before {first : Bool} {text start : List Char}
    (before : Before first text ('"' :: start)) :
    nextMember first text = .ok (.part start) := by
  cases first with
  | true => exact nextMember_of_blanks before
  | false =>
      obtain ⟨others, comma, blanks⟩ := before
      exact nextMember_of_comma comma blanks

/-! ## Arrays -/

/-- The elements of an array are read as `values`, up to the closing bracket. -/
def ElementsAs {α : Type} (readElement : List Char → Except Fault (α × List Char)) (first : Bool)
    (values : List α) (text rest : List Char) : Prop :=
  Frame.list.Parts first text rest ∧ ∀ budget, text.length < budget →
    readElements readElement budget first text = .ok (values, ']' :: rest)

section Arrays

variable {α : Type} {readElement : List Char → Except Fault (α × List Char)}

theorem ElementsAs.nil (first : Bool) {text rest : List Char} (close : Blanks text (']' :: rest)) :
    ElementsAs readElement first [] text rest := by
  refine ⟨.inl close, fun budget enough => ?_⟩
  obtain ⟨left, rfl⟩ : ∃ left, budget = left + 1 := ⟨budget - 1, by omega⟩
  rw [readElements, nextElement_of_close close]

theorem ElementsAs.cons (isReader : IsValueReader readElement) {first : Bool} {value : α}
    {values : List α} {text start behind rest : List Char} (before : Before first text start)
    (element : ReadsAs readElement value start behind)
    (later : ElementsAs readElement false values behind rest) :
    ElementsAs readElement first (value :: values) text rest := by
  have delimited := later.1.isDelimited
  refine ⟨.inr ⟨start, before, Frame.inside_of_part .list element.1 later.1⟩, ?_⟩
  intro budget enough
  -- An element takes a character at least, so what is left of the budget is enough behind it.
  have shorter := before.length_le
  have behindElement := element.1.length_lt
  obtain ⟨left, rfl⟩ : ∃ left, budget = left + 1 := ⟨budget - 1, by omega⟩
  rw [readElements, nextElement_of_before before element.1]
  simp only [← isReader.of_blanks (blanks_skipBlanks start), element.2 delimited,
    later.2 left (by omega)]

theorem spans_of_readElements (isReader : IsValueReader readElement) (budget : Nat) :
    ∀ {first : Bool} {text behind : List Char} {values : List α},
      readElements readElement budget first text = .ok (values, behind) →
      ∃ rest, behind = ']' :: rest ∧ Spans (ElementsAs readElement first values) text rest := by
  induction budget with
  | zero =>
      intro first text behind values read
      contradiction
  | succ budget inductionHypothesis =>
      intro first text behind values read
      rw [readElements] at read
      split at read
      · contradiction
      · next rest found =>
          obtain ⟨rfl, rfl⟩ := Prod.mk.inj (Except.ok.inj read)
          rcases nextElement_cases found with ⟨rest, same, close⟩ | ⟨start, impossible, _⟩
          · rw [Next.close.inj same]
            exact ⟨rest, rfl, (spans_token close).mono (.nil first)⟩
          · contradiction
      · next start found =>
          rcases nextElement_cases found with ⟨rest, impossible, _⟩ | ⟨start, same, before⟩
          · contradiction
          · rw [Next.part.inj same] at read
            split at read
            · contradiction
            · next value between element =>
                split at read
                · contradiction
                · next others stop laterRead =>
                    obtain ⟨rfl, rfl⟩ := Prod.mk.inj (Except.ok.inj read)
                    obtain ⟨rest, rfl, later⟩ := inductionHypothesis laterRead
                    refine ⟨rest, rfl, ?_⟩
                    have parts := (isReader.spans element).trans later fun element later =>
                      (⟨_, element, later⟩ : ∃ behind, ReadsAs readElement value _ behind ∧
                        ElementsAs readElement false others behind _)
                    exact before.trans parts fun before ⟨_, element, later⟩ =>
                      .cons isReader before element later

end Arrays

theorem isValueReader_sequence {element : Shape} (isReader : IsValueReader element.read) :
    IsValueReader (Shape.sequence element).read := by
  constructor
  · intro text start blanks
    rw [Shape.read, Shape.read, blanks.skipBlanks_eq]
  · intro text behind values read
    have blanks := blanks_skipBlanks text
    unfold Shape.read at read
    split at read
    · next start starts =>
        rw [starts] at blanks
        split at read
        · next found between elementsRead =>
            split at read
            · next stop ended =>
                obtain ⟨rfl, rfl⟩ := Prod.mk.inj (Except.ok.inj read)
                obtain ⟨rest, rfl, elements⟩ := spans_of_readElements isReader _ elementsRead
                rw [endList_close] at ended
                rw [← Except.ok.inj ended]
                refine Spans.and ?_ ?_
                · exact ((elements.mono And.left).cons '[' Frame.value_of_list).valueAhead blanks
                · refine (spans_token starts).trans elements fun opens elements _ => ?_
                  unfold Shape.read
                  rw [opens.ends_at (by decide)]
                  simp only [elements.2 _ (Nat.lt_succ_self _), endList_close]
            · contradiction
        · contradiction
    · exact absurd read (wrongKind_ne_ok _ _ _)

/-! ## Objects -/

section Objects

variable {α : Type}
  {readMember : (name : List Char) → α → List Char → Except Fault (α × List Char)}

/-- The colon and the value of a member come next, and if the value ends there, they change what has
been read from `before` to `after`. -/
def MemberAs (readMember : (name : List Char) → α → List Char → Except Fault (α × List Char))
    (name : List Char) (before after : α) (text rest : List Char) : Prop :=
  (∃ start, Blanks text (':' :: start) ∧ ValueAhead start rest) ∧
    (IsDelimited rest → readMember name before text = .ok (after, rest))

def IsMemberReader
    (readMember : (name : List Char) → α → List Char → Except Fault (α × List Char)) : Prop :=
  ∀ {name text behind : List Char} {before after : α},
    readMember name before text = .ok (after, behind) →
    Spans (MemberAs readMember name before after) text behind

/-- The members of an object change what has been read from `before` to `after`. -/
def MembersAs (readMember : (name : List Char) → α → List Char → Except Fault (α × List Char))
    (first : Bool) (before after : α) (text rest : List Char) : Prop :=
  Frame.object.Parts first text rest ∧ ∀ budget, text.length < budget →
    readMembers readMember budget first before text = .ok (after, '\x7d' :: rest)

theorem MembersAs.nil (first : Bool) (state : α) {text rest : List Char}
    (close : Blanks text ('\x7d' :: rest)) :
    MembersAs readMember first state state text rest := by
  refine ⟨.inl close, fun budget enough => ?_⟩
  obtain ⟨left, rfl⟩ : ∃ left, budget = left + 1 := ⟨budget - 1, by omega⟩
  rw [readMembers, nextMember_of_close close]

theorem MembersAs.cons {first : Bool} {before between after : α}
    {text start chars colonText behind rest : List Char}
    (opens : Before first text ('"' :: start)) (form : StringForm start chars colonText)
    (member : MemberAs readMember chars before between colonText behind)
    (later : MembersAs readMember false between after behind rest) :
    MembersAs readMember first before after text rest := by
  have delimited := later.1.isDelimited
  obtain ⟨⟨valueText, colon, ahead⟩, read⟩ := member
  obtain ⟨written, space, value⟩ := id ahead
  have part : Frame.object.Part ('"' :: start) behind :=
    ⟨_, .intro (.refl _) (.spelled form) colon space value⟩
  refine ⟨.inr ⟨_, opens, Frame.inside_of_part .object part later.1⟩, ?_⟩
  intro budget enough
  have shorter := opens.length_le
  have behindName := form.body.length_lt
  have behindColon := colon.length_le
  have behindValue := ahead.length_lt
  rw [List.length_cons] at shorter behindColon
  obtain ⟨left, rfl⟩ : ∃ left, budget = left + 1 := ⟨budget - 1, by omega⟩
  rw [readMembers, nextMember_of_before opens]
  simp only [readText_of_form form, read delimited, later.2 left (by omega)]

theorem spans_of_readMembers (isReader : IsMemberReader readMember) (budget : Nat) :
    ∀ {first : Bool} {text behind : List Char} {before after : α},
      readMembers readMember budget first before text = .ok (after, behind) →
      ∃ rest, behind = '\x7d' :: rest ∧
        Spans (MembersAs readMember first before after) text rest := by
  induction budget with
  | zero =>
      intro first text behind before after read
      contradiction
  | succ budget inductionHypothesis =>
      intro first text behind before after read
      rw [readMembers] at read
      split at read
      · contradiction
      · next rest found =>
          obtain ⟨rfl, rfl⟩ := Prod.mk.inj (Except.ok.inj read)
          rcases nextMember_cases found with ⟨rest, same, close⟩ | ⟨start, impossible, _⟩
          · rw [Next.close.inj same]
            exact ⟨rest, rfl, (spans_token close).mono (.nil first before)⟩
          · contradiction
      · next start found =>
          rcases nextMember_cases found with ⟨rest, impossible, _⟩ | ⟨start, same, opens⟩
          · contradiction
          · rw [Next.part.inj same] at read
            split at read
            · contradiction
            · next chars colonText named =>
                split at read
                · contradiction
                · next between stop memberRead =>
                    obtain ⟨rest, rfl, later⟩ := inductionHypothesis read
                    refine ⟨rest, rfl, ?_⟩
                    have form := readText_eq_ok_iff.mp named
                    have parts := (isReader memberRead).trans later fun member later =>
                      (⟨_, member, later⟩ : ∃ behind,
                        MemberAs readMember chars before between _ behind ∧
                          MembersAs readMember false between after behind _)
                    have opened := opens.trans form.spans fun opens form =>
                      (⟨_, opens, form⟩ : ∃ start, Before first _ ('"' :: start) ∧
                        StringForm start chars _)
                    exact opened.trans parts fun ⟨_, opens, form⟩ ⟨_, member, later⟩ =>
                      .cons opens form member later

end Objects

/-! ## Records -/

theorem faultInObject_ne_ok {α : Type} (cause : Cause) (text : List Char) (found : α) :
    faultInObject cause text ≠ .ok found := by
  unfold faultInObject
  split
  · exact nofun
  · exact nofun

/-- A field is read from a member of its own name once, and from behind the colon on. -/
theorem of_readMember_same {field : String} {shape : Shape} {fields : Fields} {name : List Char}
    (same : String.ofList name = field) {before after : (Fields.cons field shape fields).Partial}
    {text behind : List Char}
    (read : (Fields.cons field shape fields).readMember name before text = .ok (after, behind)) :
    before.1 = none ∧ ∃ start value, readColon text = .ok start ∧
      shape.read start = .ok (value, behind) ∧ after = (some value, before.2) := by
  cases unread : before.1 with
  | some value =>
      rw [Fields.readMember, if_pos same, unread] at read
      exact absurd read (faultInObject_ne_ok _ _ _)
  | none =>
      rw [readMember_same same before unread] at read
      cases colon : readColon text with
      | error fault =>
          rw [colon] at read
          contradiction
      | ok start =>
          rw [colon, Except.bind] at read
          cases found : shape.read start with
          | error fault =>
              rw [found] at read
              contradiction
          | ok result =>
              rw [found] at read
              injection read with equality
              injection equality with sameAfter sameBehind
              refine ⟨rfl, start, result.1, rfl, ?_, sameAfter.symm⟩
              rw [found, ← sameBehind]

theorem of_readMember_other {field : String} {shape : Shape} {fields : Fields} {name : List Char}
    (different : String.ofList name ≠ field)
    {before after : (Fields.cons field shape fields).Partial} {text behind : List Char}
    (read : (Fields.cons field shape fields).readMember name before text = .ok (after, behind)) :
    ∃ others, fields.readMember name before.2 text = .ok (others, behind) ∧
      after = (before.1, others) := by
  rw [readMember_other different before text] at read
  cases found : fields.readMember name before.2 text with
  | error fault =>
      rw [found] at read
      contradiction
  | ok result =>
      rw [found] at read
      injection read with equality
      injection equality with sameAfter sameBehind
      refine ⟨result.1, ?_, sameAfter.symm⟩
      rw [← sameBehind]

theorem spans_of_skip {text behind : List Char} (skipped : skip text = .ok behind) :
    Spans ValueAhead text behind :=
  spans_of_skipValue _ skipped

theorem isMemberReader_nil : IsMemberReader Fields.nil.readMember := by
  intro name text behind before after read
  rw [Fields.readMember] at read
  split at read
  · next start colonRead =>
      split at read
      · next stop skipped =>
          obtain ⟨rfl, rfl⟩ := Prod.mk.inj (Except.ok.inj read)
          refine (spans_of_readColon colonRead).trans (spans_of_skip skipped) fun colon ahead => ?_
          refine ⟨⟨_, colon, ahead⟩, fun delimited => ?_⟩
          simp only [Fields.readMember, readColon,
            colon.ends_at (show isSeparator ':' = false by decide), ahead.skip_eq delimited]
      · contradiction
  · contradiction

theorem isMemberReader_cons {field : String} {shape : Shape} {fields : Fields}
    (isReader : IsValueReader shape.read) (others : IsMemberReader fields.readMember) :
    IsMemberReader (Fields.cons field shape fields).readMember := by
  intro name text behind before after read
  by_cases same : String.ofList name = field
  · obtain ⟨unread, start, value, colonRead, valueRead, rfl⟩ := of_readMember_same same read
    refine (spans_of_readColon colonRead).trans (isReader.spans valueRead) fun colon value => ?_
    refine ⟨⟨_, colon, value.1⟩, fun delimited => ?_⟩
    rw [readMember_same same before unread, readColon, colon.ends_at (by decide)]
    simp only [Except.bind, value.2 delimited]
    rfl
  · obtain ⟨between, othersRead, rfl⟩ := of_readMember_other same read
    refine (others othersRead).mono fun member => ⟨member.1, fun delimited => ?_⟩
    rw [readMember_other same, member.2 delimited]
    rfl

/-- The elements of an array are read as the values of the fields, up to the closing bracket. -/
def RowAs (fields : Fields) (title : String) (sparse : Bool) (count index : Nat)
    (values : fields.Data) (text rest : List Char) : Prop :=
  Frame.list.Parts (index = 0) text rest ∧
    fields.readArray title sparse count index text = .ok (values, rest)

theorem readArray_close_iff {title : String} {sparse : Bool} {count : Nat} {text rest : List Char}
    (close : Blanks text (']' :: rest)) : (fields : Fields) →
    ∀ {index : Nat} {values : fields.Data} {behind : List Char},
      fields.readArray title sparse count index text = .ok (values, behind) ↔
        behind = rest ∧ fields.GivenInOrder sparse [] values
  | .nil, index, values, behind => by
      simp only [Fields.readArray, endList_eq_ok_iff.mpr close]
      constructor
      · intro read
        exact ⟨(Prod.mk.inj (Except.ok.inj read)).2.symm, rfl⟩
      · rintro ⟨rfl, _⟩
        rfl
  | .cons field shape fields, index, values, behind => by
      have others {index : Nat} {values : fields.Data} {behind : List Char} :=
        @readArray_close_iff title sparse count _ rest (.refl _) fields index values behind
      simp only [Fields.readArray, nextElement_of_close close]
      constructor
      · intro read
        split at read
        · next value blank =>
            split at read
            · contradiction
            · next later stop laterRead =>
                obtain ⟨rfl, rfl⟩ := Prod.mk.inj (Except.ok.inj read)
                obtain ⟨rfl, given⟩ := others.mp laterRead
                exact ⟨rfl, ⟨rfl, blank⟩, given⟩
        · contradiction
      · rintro ⟨rfl, ⟨rfl, blank⟩, given⟩
        simp only [blank, others.mpr ⟨rfl, given⟩]
        rfl

theorem RowAs.cons {field : String} {shape : Shape} {fields : Fields}
    (isReader : IsValueReader shape.read) {title : String} {sparse : Bool} {count index : Nat}
    {value : shape.Datum} {values : fields.Data} {text start behind rest : List Char}
    (before : Before (index = 0) text start) (element : ReadsAs shape.read value start behind)
    (later : RowAs fields title sparse count (index + 1) values behind rest) :
    RowAs (.cons field shape fields) title sparse count index (value, values) text rest := by
  have parts : Frame.list.Parts false behind rest := later.1
  refine ⟨.inr ⟨start, before, Frame.inside_of_part .list element.1 parts⟩, ?_⟩
  rw [Fields.readArray, nextElement_of_before before element.1]
  simp only [← isReader.of_blanks (blanks_skipBlanks start), element.2 parts.isDelimited, later.2]

/-- An array that stands for a record is read element by element. -/
theorem spans_of_readArray_cons {field : String} {shape : Shape} {fields : Fields}
    (isReader : IsValueReader shape.read) {title : String} {sparse : Bool} {count : Nat}
    (others : ∀ {index : Nat} {values : fields.Data} {text behind : List Char},
      fields.readArray title sparse count index text = .ok (values, behind) →
      Spans (RowAs fields title sparse count index values) text behind)
    {index : Nat} {values : (Fields.cons field shape fields).Data} {text behind : List Char}
    (read : (Fields.cons field shape fields).readArray title sparse count index text =
      .ok (values, behind)) :
    Spans (RowAs (.cons field shape fields) title sparse count index values) text behind := by
  cases found : nextElement (index = 0) text with
  | error fault =>
      rw [Fields.readArray, found] at read
      contradiction
  | ok next =>
      rcases nextElement_cases found with ⟨rest, rfl, close⟩ | ⟨start, rfl, before⟩
      · have blanks := blanks_skipBlanks text
        rw [close] at blanks
        obtain ⟨rfl, given⟩ := (readArray_close_iff blanks _).mp read
        exact (spans_token close).mono fun close =>
          ⟨.inl close, (readArray_close_iff close _).mpr ⟨rfl, given⟩⟩
      · rw [Fields.readArray, found] at read
        dsimp only at read
        split at read
        · contradiction
        · next value between element =>
            split at read
            · contradiction
            · next later stop laterRead =>
                obtain ⟨rfl, rfl⟩ := Prod.mk.inj (Except.ok.inj read)
                have parts := (isReader.spans element).trans (others laterRead)
                  fun element later => (⟨_, element, later⟩ : ∃ behind,
                    ReadsAs shape.read value _ behind ∧
                      RowAs fields title sparse count (index + 1) _ behind _)
                exact before.trans parts fun before ⟨_, element, later⟩ =>
                  .cons isReader before element later

section Records

variable {title : String} {sparse : Bool} {fields : Fields} {text start : List Char}

theorem read_row (opens : skipBlanks text = '[' :: start) :
    (Shape.record title sparse fields).read text =
      fields.readArray title sparse fields.length 0 start := by
  unfold Shape.read
  rw [opens]
  rfl

theorem bracket_cases {α : Type} {unread : List Char} {list object other : List Char → α}
    {result : α} (matched : (match unread with
      | '[' :: rest => list rest
      | '\x7b' :: rest => object rest
      | rest => other rest) = result) :
    (∃ start, unread = '[' :: start) ∨ (∃ start, unread = '\x7b' :: start) ∨
      other unread = result := by
  split at matched
  · next start => exact .inl ⟨start, rfl⟩
  · next start => exact .inr (.inl ⟨start, rfl⟩)
  · exact .inr (.inr matched)

theorem opens_of_read_record {values : fields.Data} {behind : List Char}
    (read : (Shape.record title sparse fields).read text = .ok (values, behind)) :
    (∃ start, skipBlanks text = '[' :: start) ∨ ∃ start, skipBlanks text = '\x7b' :: start := by
  unfold Shape.read at read
  rcases bracket_cases read with list | object | other
  · exact .inl list
  · exact .inr object
  · exact absurd other (wrongKind_ne_ok _ _ _)

theorem spans_of_read_object (members : IsMemberReader fields.readMember)
    {values : fields.Data} {behind : List Char} (opens : skipBlanks text = '\x7b' :: start)
    (read : (Shape.record title sparse fields).read text = .ok (values, behind)) :
    ∃ after, fields.complete sparse after = .ok values ∧
      Spans (MembersAs fields.readMember true fields.unread after) start behind := by
  rw [read_object opens] at read
  split at read
  · next after stop membersRead =>
      split at read
      · next completed =>
          obtain ⟨rfl, rfl⟩ := Prod.mk.inj (Except.ok.inj read)
          obtain ⟨rest, rfl, parts⟩ := spans_of_readMembers members _ membersRead
          exact ⟨after, completed, parts⟩
      · exact absurd read (faultInObject_ne_ok _ _ _)
  · contradiction

theorem isValueReader_record (members : IsMemberReader fields.readMember)
    (row : ∀ {index : Nat} {values : fields.Data} {text behind : List Char},
      fields.readArray title sparse fields.length index text = .ok (values, behind) →
      Spans (RowAs fields title sparse fields.length index values) text behind) :
    IsValueReader (Shape.record title sparse fields).read := by
  constructor
  · intro text start blanks
    rw [Shape.read, Shape.read, blanks.skipBlanks_eq]
  · intro text behind values read
    have blanks := blanks_skipBlanks text
    rcases opens_of_read_record read with ⟨start, opens⟩ | ⟨start, opens⟩
    · rw [opens] at blanks
      rw [read_row opens] at read
      have elements := row read
      refine Spans.and ?_ ?_
      · exact ((elements.mono And.left).cons '[' Frame.value_of_list).valueAhead blanks
      · refine (spans_token opens).trans elements fun opens elements _ => ?_
        rw [read_row (opens.ends_at (by decide))]
        exact elements.2
    · rw [opens] at blanks
      obtain ⟨after, completed, parts⟩ := spans_of_read_object members opens read
      refine Spans.and ?_ ?_
      · exact ((parts.mono And.left).cons '\x7b' Frame.value_of_object).valueAhead blanks
      · refine (spans_token opens).trans parts fun opens parts _ => ?_
        rw [read_object (opens.ends_at (by decide))]
        simp only [parts.2 _ (Nat.lt_succ_self _), completed, List.drop_one, List.tail_cons]

end Records

mutual

theorem Shape.isValueReader : (shape : Shape) → shape.IsFaithful → IsValueReader shape.read
  | .text, _ => isValueReader_text
  | .flag, _ => isValueReader_flag
  | .count name _, small => isValueReader_count name small
  | .choice tags, _ => isValueReader_choice tags
  | .sequence element, faithful => isValueReader_sequence (element.isValueReader faithful)
  | .record _ _ fields, faithful =>
      isValueReader_record (fields.isMemberReader faithful) (fields.spans_of_readArray faithful)

theorem Fields.isMemberReader : (fields : Fields) → fields.IsFaithful →
    IsMemberReader fields.readMember
  | .nil, _ => isMemberReader_nil
  | .cons _ shape fields, ⟨shapeFaithful, _, faithful⟩ =>
      isMemberReader_cons (shape.isValueReader shapeFaithful) (fields.isMemberReader faithful)

theorem Fields.spans_of_readArray : (fields : Fields) → fields.IsFaithful →
    ∀ {title : String} {sparse : Bool} {count index : Nat} {values : fields.Data}
      {text behind : List Char},
      fields.readArray title sparse count index text = .ok (values, behind) →
      Spans (RowAs fields title sparse count index values) text behind
  | .nil, _, title, sparse, count, index, values, text, behind, read => by
      rw [Fields.readArray] at read
      split at read
      · next stop ended =>
          obtain ⟨rfl, rfl⟩ := Prod.mk.inj (Except.ok.inj read)
          have close := endList_eq_ok_iff.mp ended
          refine (spans_token (close.ends_at (by decide))).mono fun close => ⟨.inl close, ?_⟩
          rw [Fields.readArray, endList_eq_ok_iff.mpr close]
      · contradiction
  | .cons _ shape fields, ⟨shapeFaithful, _, faithful⟩, _, _, _, _, _, _, _, read =>
      spans_of_readArray_cons (shape.isValueReader shapeFaithful)
        (fields.spans_of_readArray faithful) read

end

end KeyStore.Json
