import KeyStore.Proofs.Json.Members
import KeyStore.Proofs.Json.Parts

/-!
# Records from objects

A record that is read from an object has what the members of the object give its fields. How the
object is laid out does not matter, nor do members that are no fields.
-/

namespace KeyStore.Json

theorem skipBlanks_eq_nil_iff {text : List Char} : skipBlanks text = [] ↔ Blanks text [] := by
  constructor
  · intro skipped
    rw [← skipped]
    exact blanks_skipBlanks text
  · intro blanks
    rw [blanks.skipBlanks_eq]
    rfl

theorem Shape.parse_eq_ok_iff {shape : Shape} {text : List Char} {value : shape.Datum} :
    shape.parse (String.ofList text) = .ok value ↔
      ∃ stop, shape.read text = .ok (value, stop) ∧ Blanks stop [] := by
  rw [Shape.parse, String.toList_ofList]
  cases shape.read text with
  | error fault => simp
  | ok result =>
      rcases result with ⟨found, behind⟩
      simp only [Except.ok.injEq, Prod.mk.injEq]
      constructor
      · intro parsed
        split at parsed
        · next blank => exact ⟨behind, ⟨Except.ok.inj parsed, rfl⟩, skipBlanks_eq_nil_iff.mp blank⟩
        · contradiction
      · rintro ⟨stop, ⟨rfl, rfl⟩, blanks⟩
        rw [skipBlanks_eq_nil_iff.mpr blanks]

section Steps

variable {colonText before written rest : List Char}

/-- A member is read to the end of its value, as the value is read alone. -/
theorem Fields.readMember_eq_ok_iff (colon : Blanks colonText (':' :: before))
    (space : Blanks before (written ++ rest)) (holds : Value (written ++ rest) rest)
    (delimited : IsDelimited rest) (chars : List Char) : (fields : Fields) → fields.IsFaithful →
    ∀ {state after : fields.Partial} {behind : List Char},
      fields.readMember chars state colonText = .ok (after, behind) ∧ IsDelimited behind ↔
        behind = rest ∧ fields.take state (String.ofList chars, written) = some after
  | .nil, _, state, after, behind => by
      have skipped := holds.skip_of_blanks space delimited
      have opened : readColon colonText = .ok before := by
        rw [readColon, colon.ends_at (by decide)]
        rfl
      simp only [Fields.readMember, opened, skipped]
      constructor
      · rintro ⟨read, _⟩
        exact ⟨(Prod.mk.inj (Except.ok.inj read)).2.symm, rfl⟩
      · rintro ⟨rfl, _⟩
        exact ⟨rfl, delimited⟩
  | .cons field shape fields, ⟨shapeFaithful, _, faithful⟩, state, after, behind => by
      have opened : readColon colonText = .ok before := by
        rw [readColon, colon.ends_at (by decide)]
        rfl
      by_cases same : String.ofList chars = field
      · have alone {value : shape.Datum} := @IsValueReader.read_iff _ shape.read
          (shape.isValueReader shapeFaithful) _ _ _ behind value space holds delimited
        simp only [Fields.take_same_iff same, Shape.parse_eq_ok_iff]
        constructor
        · rintro ⟨read, behindDelimited⟩
          obtain ⟨unread, start, value, colonRead, valueRead, rfl⟩ := of_readMember_same same read
          rw [opened] at colonRead
          rw [← Except.ok.inj colonRead] at valueRead
          obtain ⟨atEnd, isAlone⟩ := alone.mp ⟨valueRead, behindDelimited⟩
          exact ⟨atEnd, unread, value, isAlone, rfl⟩
        · rintro ⟨atEnd, unread, value, isAlone, rfl⟩
          obtain ⟨valueRead, behindDelimited⟩ := alone.mpr ⟨atEnd, isAlone⟩
          refine ⟨?_, behindDelimited⟩
          rw [readMember_same same state unread, opened, Except.bind, valueRead]
          rfl
      · have others {after : fields.Partial} :=
          @Fields.readMember_eq_ok_iff colon space holds delimited chars fields faithful state.2
            after behind
        rw [Fields.take_other_iff same]
        constructor
        · rintro ⟨read, behindDelimited⟩
          obtain ⟨between, othersRead, rfl⟩ := of_readMember_other same read
          obtain ⟨atEnd, taken⟩ := others.mp ⟨othersRead, behindDelimited⟩
          exact ⟨atEnd, between, taken, rfl⟩
        · rintro ⟨atEnd, between, taken, rfl⟩
          obtain ⟨othersRead, behindDelimited⟩ := others.mpr ⟨atEnd, taken⟩
          refine ⟨?_, behindDelimited⟩
          rw [readMember_other same, othersRead]
          rfl

end Steps

theorem Member.exists_name {name : Option String} {value text rest : List Char}
    (part : Member (name, value) text rest) :
    ∃ nameText colonText before, Blanks text ('"' :: nameText) ∧ Name nameText name colonText ∧
      Blanks colonText (':' :: before) ∧ Blanks before (value ++ rest) ∧
      Value (value ++ rest) rest := by
  cases part with
  | intro blanks named colon space holds => exact ⟨_, _, _, blanks, named, colon, space, holds⟩

theorem Name.of_readText {name : Option String} {nameText colonText chars behind : List Char}
    (named : Name nameText name colonText) (read : readText nameText = .ok (chars, behind)) :
    name = some (String.ofList chars) ∧ behind = colonText := by
  cases named with
  | spelled form =>
      rw [readText_of_form form] at read
      obtain ⟨rfl, rfl⟩ := Prod.mk.inj (Except.ok.inj read)
      exact ⟨rfl, rfl⟩
  | broken _ noForm => exact absurd (form_of_readText read) (noForm chars behind)

theorem isDelimited_of_readMembers {α : Type}
    {readMember : (name : List Char) → α → List Char → Except Fault (α × List Char)} {budget : Nat}
    {state after : α} {text behind : List Char}
    (read : readMembers readMember budget false state text = .ok (after, behind)) :
    IsDelimited text := by
  cases budget with
  | zero => contradiction
  | succ budget =>
      rw [readMembers] at read
      cases found : nextMember false text with
      | error fault =>
          rw [found] at read
          contradiction
      | ok next =>
          have blanks := blanks_skipBlanks text
          rcases nextMember_cases found with ⟨rest, _, close⟩ | ⟨start, _, before⟩
          · rw [close] at blanks
            exact .of_blanks blanks (.inr (.inr rfl))
          · exact before.holds.isDelimited

section Objects

variable {fields : Fields}

/-- One member of an object is taken, and the others are read behind it. -/
theorem Member.readMembers_eq_ok_iff (faithful : fields.IsFaithful) {name : Option String}
    {written text rest start : List Char} (part : Member (name, written) text rest)
    (delimited : IsDelimited rest) {first : Bool}
    (next : nextMember first start = nextMember true text) {budget : Nat}
    {before after : fields.Partial} {behind : List Char} :
    readMembers fields.readMember (budget + 1) first before start = .ok (after, behind) ↔
      ∃ named between, name = some named ∧ fields.take before (named, written) = some between ∧
        readMembers fields.readMember budget false between rest = .ok (after, behind) := by
  obtain ⟨nameText, colonText, valueText, blanks, named, colon, space, holds⟩ := part.exists_name
  rw [readMembers, next, nextMember_of_blanks blanks]
  dsimp only
  constructor
  · intro read
    split at read
    · contradiction
    · next chars afterName nameRead =>
        obtain ⟨rfl, rfl⟩ := named.of_readText nameRead
        split at read
        · contradiction
        · next between stop memberRead =>
            obtain ⟨rfl, taken⟩ :=
              (fields.readMember_eq_ok_iff colon space holds delimited chars faithful).mp
                ⟨memberRead, isDelimited_of_readMembers read⟩
            exact ⟨_, between, rfl, taken, read⟩
  · rintro ⟨spelling, between, rfl, taken, read⟩
    cases named with
    | spelled form =>
        obtain ⟨memberRead, _⟩ :=
          (fields.readMember_eq_ok_iff colon space holds delimited _ faithful).mpr ⟨rfl, taken⟩
        simp only [readText_of_form form, memberRead]
        exact read

/-- The members are taken one by one, in their order, and each of them has the name of a text. -/
def Fields.TakeAll (fields : Fields) (members : List (Option String × List Char))
    (before after : fields.Partial) : Prop :=
  ∃ named, members = listed named ∧ named.foldlM fields.take before = some after

theorem Fields.takeAll_nil_iff {before after : fields.Partial} :
    fields.TakeAll [] before after ↔ before = after := by
  constructor
  · rintro ⟨named, none, taken⟩
    cases named with
    | nil => exact Option.some.inj taken
    | cons member named => contradiction
  · rintro rfl
    exact ⟨[], rfl, rfl⟩

theorem Fields.takeAll_cons_iff {name : Option String} {written : List Char}
    {members : List (Option String × List Char)} {before after : fields.Partial} :
    fields.TakeAll ((name, written) :: members) before after ↔
      ∃ named between, name = some named ∧ fields.take before (named, written) = some between ∧
        fields.TakeAll members between after := by
  constructor
  · rintro ⟨all, same, taken⟩
    cases all with
    | nil => contradiction
    | cons member others =>
        obtain ⟨sameMember, rfl⟩ := List.cons.inj same
        obtain ⟨rfl, rfl⟩ := Prod.mk.inj sameMember
        rw [List.foldlM_cons] at taken
        obtain ⟨between, first, later⟩ := Option.bind_eq_some_iff.mp taken
        exact ⟨_, between, rfl, first, others, rfl, later⟩
  · rintro ⟨named, between, rfl, first, others, rfl, later⟩
    refine ⟨(named, written) :: others, rfl, ?_⟩
    rw [List.foldlM_cons, first]
    exact later

theorem Members.readMembers_eq_ok_iff (faithful : fields.IsFaithful)
    {members : List (Option String × List Char)} {text rest start : List Char}
    (parts : Members members text rest) {first : Bool}
    (next : nextMember first start = nextMember true text) {budget : Nat}
    (enough : text.length < budget) {before after : fields.Partial} {behind : List Char} :
    readMembers fields.readMember budget first before start = .ok (after, behind) ↔
      behind = '\x7d' :: rest ∧ fields.TakeAll members before after := by
  induction members generalizing text start first budget before with
  | nil => cases parts
  | cons member members inductionHypothesis =>
      rcases member with ⟨name, written⟩
      obtain ⟨left, rfl⟩ : ∃ left, budget = left + 1 := ⟨budget - 1, by omega⟩
      rw [Fields.takeAll_cons_iff]
      cases parts with
      | last part close =>
          have shorter := part.length_lt
          obtain ⟨left, rfl⟩ : ∃ others, left = others + 1 := ⟨left - 1, by omega⟩
          have step := @Member.readMembers_eq_ok_iff fields faithful _ _ _ _ _ part
            (.of_blanks close (.inr (.inr rfl))) first next (left + 1) before after behind
          rw [step]
          simp only [readMembers, nextMember_of_close close, Fields.takeAll_nil_iff]
          constructor
          · rintro ⟨named, between, rfl, taken, read⟩
            obtain ⟨rfl, rfl⟩ := Prod.mk.inj (Except.ok.inj read)
            exact ⟨rfl, named, between, rfl, taken, rfl⟩
          · rintro ⟨rfl, named, between, rfl, taken, rfl⟩
            exact ⟨named, between, rfl, taken, rfl⟩
      | more part comma others =>
          have shorter := part.length_lt
          have behindComma := comma.length_le
          rw [List.length_cons] at behindComma
          obtain ⟨nameText, blanks⟩ := others.exists_start
          -- Behind the comma the next member is found as the first one is.
          have nextOther :=
            (nextMember_of_comma comma blanks).trans (nextMember_of_blanks blanks).symm
          have step := @Member.readMembers_eq_ok_iff fields faithful _ _ _ _ _ part
            (.of_blanks comma (.inl rfl)) first next left before after behind
          have later {between : fields.Partial} :=
            @inductionHypothesis _ _ others _ nextOther left (by omega) between
          rw [step]
          simp only [later]
          constructor
          · rintro ⟨named, between, rfl, taken, rfl, takenLater⟩
            exact ⟨rfl, named, between, rfl, taken, takenLater⟩
          · rintro ⟨rfl, named, between, rfl, taken, takenLater⟩
            exact ⟨named, between, rfl, taken, rfl, takenLater⟩

theorem read_object_eq_ok_iff {title : String} {sparse : Bool} {text start : List Char}
    (opens : skipBlanks text = '\x7b' :: start) {data : fields.Data} {stop : List Char} :
    (Shape.record title sparse fields).read text = .ok (data, stop) ↔
      ∃ after behind, readMembers fields.readMember (start.length + 1) true fields.unread start =
        .ok (after, behind) ∧ fields.complete sparse after = .ok data ∧ stop = behind.drop 1 := by
  rw [read_object opens]
  constructor
  · intro read
    split at read
    · next after behind membersRead =>
        split at read
        · next completed =>
            obtain ⟨rfl, rfl⟩ := Prod.mk.inj (Except.ok.inj read)
            exact ⟨after, behind, membersRead, completed, rfl⟩
        · exact absurd read (faultInObject_ne_ok _ _ _)
    · contradiction
  · rintro ⟨after, behind, membersRead, completed, rfl⟩
    simp only [membersRead, completed]

/-- A record is read from an object by taking its members one by one. -/
theorem ObjectText.parse_eq_ok_iff_takeAll (faithful : fields.IsFaithful) {title : String}
    {sparse : Bool} {members : List (Option String × List Char)} {text : List Char}
    (object : ObjectText members text) {data : fields.Data} :
    (Shape.record title sparse fields).parse (String.ofList text) = .ok data ↔
      ∃ after, fields.TakeAll members fields.unread after ∧
        fields.complete sparse after = .ok data := by
  have ofMembers {start behind : List Char} (opens : skipBlanks text = '\x7b' :: start)
      (blank : Blanks behind []) (reads : ∀ {after : fields.Partial} {stop : List Char},
        readMembers fields.readMember (start.length + 1) true fields.unread start =
            .ok (after, stop) ↔
          stop = '\x7d' :: behind ∧ fields.TakeAll members fields.unread after) :
      (∃ stop, (Shape.record title sparse fields).read text = .ok (data, stop) ∧ Blanks stop []) ↔
        ∃ after, fields.TakeAll members fields.unread after ∧
          fields.complete sparse after = .ok data := by
    simp only [read_object_eq_ok_iff opens, reads]
    constructor
    · rintro ⟨stop, ⟨after, _, ⟨rfl, taken⟩, completed, rfl⟩, _⟩
      exact ⟨after, taken, completed⟩
    · rintro ⟨after, taken, completed⟩
      exact ⟨behind, ⟨after, _, ⟨rfl, taken⟩, completed, rfl⟩, blank⟩
  refine Shape.parse_eq_ok_iff.trans ?_
  cases object with
  | @empty _ start behind opens inside blank =>
      refine ofMembers (opens.ends_at (by decide)) blank fun {after stop} => ?_
      rw [readMembers, nextMember_of_close inside, Fields.takeAll_nil_iff]
      constructor
      · intro read
        obtain ⟨rfl, rfl⟩ := Prod.mk.inj (Except.ok.inj read)
        exact ⟨rfl, rfl⟩
      · rintro ⟨rfl, rfl⟩
        rfl
  | members opens inside blank =>
      refine ofMembers (opens.ends_at (by decide)) blank ?_
      exact inside.readMembers_eq_ok_iff faithful rfl (Nat.lt_succ_self _)

end Objects

/-! ## Objects as records -/

theorem listed_injective {members others : List (String × List Char)}
    (same : listed members = listed others) :
    members = others := by
  refine List.map_injective_iff.mpr (fun first second equality => ?_) same
  obtain ⟨sameName, sameValue⟩ := Prod.mk.inj equality
  exact Prod.ext (Option.some.inj sameName) sameValue

section Records

variable {title : String} {sparse : Bool} {fields : Fields}

/-- A record that is read from an object has what the members of the object give its fields. -/
theorem ObjectText.parse_eq_ok_iff (faithful : fields.IsFaithful)
    {members : List (Option String × List Char)} {text : List Char}
    (object : ObjectText members text) {data : fields.Data} :
    (Shape.record title sparse fields).parse (String.ofList text) = .ok data ↔
      ∃ named, members = listed named ∧ fields.GivenBy sparse named data := by
  rw [object.parse_eq_ok_iff_takeAll faithful]
  simp only [← fields.givenBy_iff faithful, Fields.TakeAll]
  constructor
  · rintro ⟨after, ⟨named, same, taken⟩, completed⟩
    exact ⟨named, same, after, taken, completed⟩
  · rintro ⟨named, same, after, taken, completed⟩
    exact ⟨after, ⟨named, same, taken⟩, completed⟩

theorem ObjectText.parse_listed_iff (faithful : fields.IsFaithful)
    {members : List (String × List Char)} {text : List Char}
    (object : ObjectText (listed members) text) {data : fields.Data} :
    (Shape.record title sparse fields).parse (String.ofList text) = .ok data ↔
      fields.GivenBy sparse members data := by
  rw [object.parse_eq_ok_iff faithful]
  constructor
  · rintro ⟨named, same, given⟩
    rw [listed_injective same]
    exact given
  · intro given
    exact ⟨members, rfl, given⟩

end Records

end KeyStore.Json
