import KeyStore.Record.Basic
import KeyStore.Proofs.Json.Numbers
import KeyStore.Proofs.Json.Strings
import Mathlib.Data.List.Nodup

/-!
# Written values are read back

What a shape writes for a value it reads as that value, whatever delimits it. A record may be
written with only some of its fields; the others are then read as missing.
-/

namespace KeyStore.Json

theorem intercalate_cons (first : List Char) (others : List (List Char)) :
    List.intercalate [','] (first :: others) = first ++ others.flatMap (',' :: ·) := by
  induction others generalizing first with
  | nil => simp [List.intercalate]
  | cons second others inductionHypothesis =>
      have step : List.intercalate [','] (first :: second :: others) =
          first ++ ',' :: List.intercalate [','] (second :: others) := by
        simp [List.intercalate, List.intersperse]
      rw [step, inductionHypothesis, List.flatMap_cons, List.cons_append]

/-- A joined text has at least one character for each of its parts. -/
theorem length_le_intercalate {parts : List (List Char)} (nonempty : ∀ part ∈ parts, part ≠ []) :
    parts.length ≤ (List.intercalate [','] parts).length := by
  have behindCommas (others : List (List Char)) :
      others.length ≤ (others.flatMap (',' :: ·)).length := by
    induction others with
    | nil => exact Nat.le_refl 0
    | cons second others inductionHypothesis =>
        simp only [List.flatMap_cons, List.length_append, List.length_cons]
        omega
  cases parts with
  | nil => exact Nat.zero_le _
  | cons first others =>
      have filled := List.length_pos_iff.mpr (nonempty first List.mem_cons_self)
      have later := behindCommas others
      rw [intercalate_cons, List.length_append, List.length_cons]
      omega

theorem IsDelimited.nil : IsDelimited [] := nofun

theorem IsDelimited.cons {char : Char} (delimits : char = ',' ∨ char = ']' ∨ char = '\x7d')
    (rest : List Char) :
    IsDelimited (char :: rest) :=
  .of_blanks (.refl _) delimits

theorem isDelimited_flatMap (parts : List (List Char)) {close : Char}
    (closes : close = ']' ∨ close = '\x7d') (rest : List Char) :
    IsDelimited (parts.flatMap (',' :: ·) ++ close :: rest) := by
  cases parts with
  | nil => exact .cons (.inr closes) rest
  | cons first others => exact .cons (.inl rfl) _

/-! ## Arrays -/

section Arrays

variable {α : Type} {readElement : List Char → Except Fault (α × List Char)}
  {write : α → List Char}

/-- A written value does not look like the end of an array. -/
def Starts (text : List Char) : Prop :=
  ∃ char behind, text = char :: behind ∧ isSeparator char = false ∧ char ≠ ']'

theorem nextElement_first {text : List Char} (starts : Starts text) (rest : List Char) :
    nextElement true (text ++ rest) = .ok (.part (text ++ rest)) := by
  obtain ⟨char, behind, rfl, notSeparator, notClose⟩ := starts
  rw [List.cons_append, nextElement, skipBlanks_cons notSeparator]
  simp only [notClose, if_false, if_true]

theorem nextElement_comma {text : List Char} (starts : Starts text) (rest : List Char) :
    nextElement false (',' :: (text ++ rest)) = .ok (.part (text ++ rest)) := by
  obtain ⟨char, behind, rfl, notSeparator, notClose⟩ := starts
  rw [List.cons_append, nextElement, skipBlanks_cons (by decide)]
  simp only [show (',' : Char) ≠ ']' by decide, if_false, if_true, Bool.false_eq_true,
    skipBlanks_cons notSeparator, notClose]

theorem nextElement_close (first : Bool) (rest : List Char) :
    nextElement first (']' :: rest) = .ok (.close (']' :: rest)) := by
  rw [nextElement, skipBlanks_cons (by decide)]
  rfl

theorem readElements_behind (starts : ∀ value, Starts (write value))
    (reads : ∀ value rest, IsDelimited rest →
      readElement (write value ++ rest) = .ok (value, rest)) (rest : List Char) (values : List α) :
    ∀ budget, values.length < budget →
      readElements readElement budget false
          ((values.map write).flatMap (',' :: ·) ++ ']' :: rest) =
        .ok (values, ']' :: rest) := by
  induction values with
  | nil =>
      intro budget enough
      obtain ⟨left, rfl⟩ : ∃ left, budget = left + 1 := ⟨budget - 1, by omega⟩
      rw [List.map_nil, List.flatMap_nil, List.nil_append, readElements, nextElement_close]
  | cons value values inductionHypothesis =>
      intro budget enough
      rw [List.length_cons] at enough
      obtain ⟨left, rfl⟩ : ∃ left, budget = left + 1 := ⟨budget - 1, by omega⟩
      rw [List.map_cons, List.flatMap_cons, List.append_assoc, List.cons_append, readElements,
        nextElement_comma (starts value)]
      simp only [reads value _ (isDelimited_flatMap _ (.inl rfl) rest),
        inductionHypothesis left (by omega)]

theorem readElements_joined (starts : ∀ value, Starts (write value))
    (reads : ∀ value rest, IsDelimited rest →
      readElement (write value ++ rest) = .ok (value, rest)) (rest : List Char) (values : List α)
    (budget : Nat) (enough : values.length < budget) :
    readElements readElement budget true
        (List.intercalate [','] (values.map write) ++ ']' :: rest) =
      .ok (values, ']' :: rest) := by
  obtain ⟨left, rfl⟩ : ∃ left, budget = left + 1 := ⟨budget - 1, by omega⟩
  cases values with
  | nil =>
      show readElements readElement (left + 1) true (']' :: rest) = _
      rw [readElements, nextElement_close]
  | cons value values =>
      rw [List.length_cons] at enough
      rw [List.map_cons, intercalate_cons, List.append_assoc, readElements,
        nextElement_first (starts value)]
      simp only [reads value _ (isDelimited_flatMap _ (.inl rfl) rest),
        readElements_behind starts reads rest values left (by omega)]

end Arrays

/-! ## Objects -/

section Objects

variable {α : Type}
  {readMember : (name : List Char) → α → List Char → Except Fault (α × List Char)}

def writeMember (member : String × List Char) : List Char :=
  writeText member.1.toList ++ ':' :: member.2

/-- Written members that are read one after the other, each up to its end. -/
inductive MembersRead
    (readMember : (name : List Char) → α → List Char → Except Fault (α × List Char)) :
    (members : List (String × List Char)) → (before after : α) → Prop
  | nil (state : α) : MembersRead readMember [] state state
  | cons {name : String} {value : List Char} {members : List (String × List Char)}
      {before between after : α}
      (step : ∀ rest, IsDelimited rest →
        readMember name.toList before (':' :: (value ++ rest)) = .ok (between, rest))
      (later : MembersRead readMember members between after) :
      MembersRead readMember ((name, value) :: members) before after

theorem writeMember_append (member : String × List Char) (rest : List Char) :
    writeMember member ++ rest =
      '"' :: (member.1.toList.flatMap writeChar ++ '"' :: ':' :: (member.2 ++ rest)) := by
  simp only [writeMember, writeText, List.cons_append, List.append_assoc, List.nil_append]

theorem readText_flatMap_writeChar (chars rest : List Char) :
    readText (chars.flatMap writeChar ++ '"' :: rest) = .ok (chars, rest) :=
  readText_of_form (stringForm_writeText chars rest)

theorem nextMember_of_blanks {text rest : List Char} (blanks : Blanks text ('"' :: rest)) :
    nextMember true text = .ok (.part rest) := by
  rw [nextMember, blanks.ends_at (by decide)]
  rfl

theorem nextMember_of_comma {text others rest : List Char} (comma : Blanks text (',' :: others))
    (blanks : Blanks others ('"' :: rest)) :
    nextMember false text = .ok (.part rest) := by
  rw [nextMember, comma.ends_at (by decide)]
  simp only [show (',' : Char) ≠ '\x7d' by decide, if_false, if_true, Bool.false_eq_true,
    blanks.ends_at (show isSeparator '"' = false by decide)]

theorem nextMember_of_close {text rest : List Char} (blanks : Blanks text ('\x7d' :: rest))
    (first : Bool) :
    nextMember first text = .ok (.close ('\x7d' :: rest)) := by
  rw [nextMember, blanks.ends_at (by decide)]
  rfl

theorem MembersRead.readMembers_behind {members : List (String × List Char)} {before after : α}
    (reads : MembersRead readMember members before after) (rest : List Char) :
    ∀ budget, members.length < budget →
      readMembers readMember budget false before
          ((members.map writeMember).flatMap (',' :: ·) ++ '\x7d' :: rest) =
        .ok (after, '\x7d' :: rest) := by
  induction reads with
  | nil state =>
      intro budget enough
      obtain ⟨left, rfl⟩ : ∃ left, budget = left + 1 := ⟨budget - 1, by omega⟩
      rw [List.map_nil, List.flatMap_nil, List.nil_append, readMembers,
        nextMember_of_close (.refl _)]
  | cons step _ inductionHypothesis =>
      intro budget enough
      rw [List.length_cons] at enough
      obtain ⟨left, rfl⟩ : ∃ left, budget = left + 1 := ⟨budget - 1, by omega⟩
      rw [List.map_cons, List.flatMap_cons, List.append_assoc, List.cons_append,
        writeMember_append, readMembers, nextMember_of_comma (.refl _) (.refl _)]
      simp only [readText_flatMap_writeChar, step _ (isDelimited_flatMap _ (.inr rfl) rest),
        inductionHypothesis left (by omega)]

theorem MembersRead.readMembers_joined {members : List (String × List Char)} {before after : α}
    (reads : MembersRead readMember members before after) (rest : List Char) (budget : Nat)
    (enough : members.length < budget) :
    readMembers readMember budget true before
        (List.intercalate [','] (members.map writeMember) ++ '\x7d' :: rest) =
      .ok (after, '\x7d' :: rest) := by
  obtain ⟨left, rfl⟩ : ∃ left, budget = left + 1 := ⟨budget - 1, by omega⟩
  cases reads with
  | nil =>
      show readMembers readMember (left + 1) true before ('\x7d' :: rest) = _
      rw [readMembers, nextMember_of_close (.refl _)]
  | cons step later =>
      rw [List.length_cons] at enough
      rw [List.map_cons, intercalate_cons, List.append_assoc, writeMember_append, readMembers,
        nextMember_of_blanks (.refl _)]
      simp only [readText_flatMap_writeChar, step _ (isDelimited_flatMap _ (.inr rfl) rest),
        later.readMembers_behind rest left (by omega)]

end Objects

def Fields.names : Fields → List String
  | .nil => []
  | .cons name _ rest => name :: rest.names

mutual

/-- Every value of the shape has a form of its own: the tags are different from each other, and so
are the names of fields, and every number fits 64 bits. -/
def Shape.IsFaithful : Shape → Prop
  | .text => True
  | .flag => True
  | .count _ bound => bound ≤ UInt64.size
  | .choice tags => tags.Nodup
  | .sequence element => element.IsFaithful
  | .record _ _ fields => fields.IsFaithful

def Fields.IsFaithful : Fields → Prop
  | .nil => True
  | .cons name shape rest => shape.IsFaithful ∧ name ∉ rest.names ∧ rest.IsFaithful

end

mutual

/-- Decides whether every value of the shape has a form of its own. -/
def Shape.decideFaithful : (shape : Shape) → Decidable shape.IsFaithful
  | .text => inferInstanceAs (Decidable True)
  | .flag => inferInstanceAs (Decidable True)
  | .count _ bound => inferInstanceAs (Decidable (bound ≤ UInt64.size))
  | .choice tags => inferInstanceAs (Decidable tags.Nodup)
  | .sequence element => element.decideFaithful
  | .record _ _ fields => fields.decideFaithful

def Fields.decideFaithful : (fields : Fields) → Decidable fields.IsFaithful
  | .nil => inferInstanceAs (Decidable True)
  | .cons name shape rest =>
      have := shape.decideFaithful
      have := rest.decideFaithful
      inferInstanceAs (Decidable (shape.IsFaithful ∧ name ∉ rest.names ∧ rest.IsFaithful))

end

instance (shape : Shape) : Decidable shape.IsFaithful :=
  shape.decideFaithful

namespace Fields

/-- The names and written values of those fields that have been read. -/
def presentMembers : (fields : Fields) → fields.Partial → List (String × List Char)
  | .nil, _ => []
  | .cons name shape rest, values =>
      match values.1 with
      | some value => (name, shape.write value) :: rest.presentMembers values.2
      | none => rest.presentMembers values.2

def filled : (fields : Fields) → fields.Data → fields.Partial
  | .nil, _ => ()
  | .cons _ _ rest, values => (some values.1, rest.filled values.2)

theorem writeMembers_eq : (fields : Fields) → (values : fields.Data) →
    fields.writeMembers values = (fields.presentMembers (fields.filled values)).map writeMember
  | .nil, _ => by
      rw [writeMembers]
      rfl
  | .cons name shape rest, values => by
      rw [writeMembers, rest.writeMembers_eq values.2]
      rfl

theorem complete_filled (sparse : Bool) : (fields : Fields) → (values : fields.Data) →
    fields.complete sparse (fields.filled values) = .ok values
  | .nil, _ => rfl
  | .cons name shape rest, values => by
      have later := rest.complete_filled sparse values.2
      simp only [complete, filled, later]
      rfl

theorem presentMembers_subset : (fields : Fields) → (values : fields.Partial) →
    (fields.presentMembers values).map Prod.fst ⊆ fields.names
  | .nil, _ => List.nil_subset _
  | .cons name shape rest, values => by
      have later := rest.presentMembers_subset values.2
      unfold presentMembers
      split
      · exact List.cons_subset_cons name later
      · exact List.subset_cons_of_subset name later

end Fields

theorem readColon_colon (text : List Char) : readColon (':' :: text) = .ok text := by
  rw [readColon, skipBlanks_cons (by decide)]
  rfl

theorem readMember_other {field : String} {shape : Shape} {fields : Fields} {name : List Char}
    (different : String.ofList name ≠ field) (values : (Fields.cons field shape fields).Partial)
    (text : List Char) :
    (Fields.cons field shape fields).readMember name values text =
      (fields.readMember name values.2 text).map
        fun found => ((values.1, found.1), found.2) := by
  rw [Fields.readMember, if_neg different]
  cases fields.readMember name values.2 text with
  | error fault => rfl
  | ok found => rfl

theorem readMember_same {field : String} {shape : Shape} {fields : Fields} {name : List Char}
    (same : String.ofList name = field) (values : (Fields.cons field shape fields).Partial)
    (unread : values.1 = none) (text : List Char) :
    (Fields.cons field shape fields).readMember name values text =
      (readColon text).bind fun start =>
        (shape.read start).map fun found => ((some found.1, values.2), found.2) := by
  rw [Fields.readMember, if_pos same, unread]
  cases readColon text with
  | error fault => rfl
  | ok start =>
      dsimp only [Except.bind]
      cases shape.read start with
      | error fault => rfl
      | ok found => rfl

theorem MembersRead.behind {field : String} {shape : Shape} {fields : Fields}
    {members : List (String × List Char)} {before after : fields.Partial}
    (reads : MembersRead fields.readMember members before after)
    (other : field ∉ members.map Prod.fst) (value : Option shape.Datum) :
    MembersRead (Fields.cons field shape fields).readMember members (value, before)
      (value, after) := by
  induction reads with
  | nil state => exact .nil _
  | @cons name text members before between after step _ inductionHypothesis =>
      rw [List.map_cons, List.mem_cons, not_or] at other
      refine .cons (fun rest delimited => ?_) (inductionHypothesis other.2)
      have different : String.ofList name.toList ≠ field := by
        rw [String.ofList_toList]
        exact Ne.symm other.1
      refine (readMember_other different (value, before) _).trans ?_
      rw [step rest delimited]
      rfl

theorem read_object {title : String} {sparse : Bool} {fields : Fields} {text start : List Char}
    (opens : skipBlanks text = '\x7b' :: start) :
    (Shape.record title sparse fields).read text =
      match readMembers fields.readMember (start.length + 1) true fields.unread start with
      | .ok (values, behind) =>
          match fields.complete sparse values with
          | .ok values => .ok (values, behind.drop 1)
          | .error cause => faultInObject cause behind
      | .error fault => .error fault := by
  unfold Shape.read
  rw [opens]
  rfl

def writeObject (members : List (String × List Char)) : List Char :=
  '\x7b' :: (List.intercalate [','] (members.map writeMember) ++ ['\x7d'])

theorem writeObject_append (members : List (String × List Char)) (rest : List Char) :
    writeObject members ++ rest =
      '\x7b' :: (List.intercalate [','] (members.map writeMember) ++ '\x7d' :: rest) := by
  rw [writeObject, List.cons_append, List.append_assoc, List.singleton_append]

theorem read_writeObject {title : String} {sparse : Bool} {fields : Fields}
    {members : List (String × List Char)} {values : fields.Partial} {data : fields.Data}
    (reads : MembersRead fields.readMember members fields.unread values)
    (complete : fields.complete sparse values = .ok data) (rest : List Char) :
    (Shape.record title sparse fields).read (writeObject members ++ rest) = .ok (data, rest) := by
  have nonempty : ∀ part ∈ members.map writeMember, part ≠ [] := by
    intro part isPart
    obtain ⟨member, _, rfl⟩ := List.mem_map.mp isPart
    exact List.cons_ne_nil _ _
  have enough : members.length <
      (List.intercalate [','] (members.map writeMember) ++ '\x7d' :: rest).length + 1 := by
    have shorter := length_le_intercalate nonempty
    rw [List.length_map] at shorter
    rw [List.length_append]
    omega
  have read := reads.readMembers_joined rest _ enough
  rw [writeObject_append, read_object (skipBlanks_cons (by decide) _)]
  simp only [read, complete, List.drop_one, List.tail_cons]

/-! ## Reading what has been written -/

theorem starts_toDigits (number : Nat) : Starts (Nat.toDigits 10 number) := by
  cases written : Nat.toDigits 10 number with
  | nil => exact absurd written Nat.toDigits_ne_nil
  | cons first others =>
      have digit : isDigit first = true := by
        refine @isDigit_of_mem_toDigits number first ?_
        rw [written]
        exact List.mem_cons_self
      refine ⟨first, others, rfl, notSeparator_of_isDigit digit, ?_⟩
      exact ne_of_isDigit digit (by decide)

theorem starts_write : (shape : Shape) → (value : shape.Datum) → Starts (shape.write value)
  | .text, value => by
      rw [Shape.write]
      exact ⟨_, _, rfl, by decide, by decide⟩
  | .flag, value => by
      rw [Shape.write]
      cases value with
      | true => exact ⟨_, _, rfl, by decide, by decide⟩
      | false => exact ⟨_, _, rfl, by decide, by decide⟩
  | .count _ _, value => by
      rw [Shape.write]
      exact starts_toDigits _
  | .choice _, value => by
      rw [Shape.write]
      exact ⟨_, _, rfl, by decide, by decide⟩
  | .sequence _, value => by
      rw [Shape.write]
      exact ⟨_, _, rfl, by decide, by decide⟩
  | .record _ _ _, value => by
      rw [Shape.write]
      exact ⟨_, _, rfl, by decide, by decide⟩

theorem readFlag_writeFlag (value : Bool) (rest : List Char) :
    readFlag (writeFlag value ++ rest) = .ok (value, rest) := by
  cases value with
  | true => rfl
  | false => rfl

theorem writeText_append (chars rest : List Char) :
    writeText chars ++ rest = '"' :: (chars.flatMap writeChar ++ '"' :: rest) := by
  simp only [writeText, List.cons_append, List.append_assoc, List.nil_append]

theorem readString_writeText (expected : String) (chars rest : List Char) :
    readString expected (writeText chars ++ rest) = .ok (chars, rest) := by
  rw [writeText_append, readString, skipBlanks_cons (by decide)]
  exact readText_flatMap_writeChar chars rest

theorem readChoice_writeText {tags : List String} (different : tags.Nodup)
    (index : Fin tags.length) (rest : List Char) :
    readChoice tags (writeText (tags.get index).toList ++ rest) = .ok (index, rest) := by
  have found : tags.finIdxOf? (tags.get index) = some index := by
    rw [List.finIdxOf?_eq_some_iff]
    refine ⟨rfl, fun earlier isEarlier same => ?_⟩
    exact Fin.ne_of_lt isEarlier ((List.Nodup.get_inj_iff different).mp same)
  rw [writeText_append, readChoice, skipBlanks_cons (by decide)]
  simp only [if_true, readText_flatMap_writeChar, bind, Except.bind, choiceOfTag,
    String.ofList_toList, found]

theorem readCount_toDigits (name : String) {bound : Nat} (small : bound ≤ UInt64.size)
    (value : Fin bound) {rest : List Char} (delimited : IsDelimited rest) :
    readCount name bound (Nat.toDigits 10 value.val ++ rest) = .ok (value, rest) := by
  have read := readNumber_toDigits (Nat.lt_of_lt_of_le value.isLt small) delimited
  cases written : Nat.toDigits 10 value.val with
  | nil => exact absurd written Nat.toDigits_ne_nil
  | cons first others =>
      have digit : isDigit first = true := by
        refine @isDigit_of_mem_toDigits value.val first ?_
        rw [written]
        exact List.mem_cons_self
      rw [written, List.cons_append] at read
      rw [List.cons_append, readCount, skipBlanks_cons (notSeparator_of_isDigit digit)]
      simp only [ne_of_isDigit digit (show isDigit '-' = false by decide), digit, if_true, if_false,
        read, countOfNumber, value.isLt, dite_true, Fin.eta]

theorem endList_close (rest : List Char) : endList (']' :: rest) = .ok rest := by
  rw [endList, skipBlanks_cons (by decide)]
  rfl

theorem read_array {element : Shape}
    (reads : ∀ value rest, IsDelimited rest →
      element.read (element.write value ++ rest) = .ok (value, rest))
    (values : List element.Datum) (rest : List Char) :
    (Shape.sequence element).read
        ('[' :: (List.intercalate [','] (values.map element.write) ++ ']' :: rest)) =
      .ok (values, rest) := by
  have nonempty : ∀ part ∈ values.map element.write, part ≠ [] := by
    intro part member
    obtain ⟨value, _, rfl⟩ := List.mem_map.mp member
    obtain ⟨char, behind, equality, _⟩ := starts_write element value
    rw [equality]
    exact List.cons_ne_nil char behind
  have enough : values.length <
      (List.intercalate [','] (values.map element.write) ++ ']' :: rest).length + 1 := by
    have shorter := length_le_intercalate nonempty
    rw [List.length_map] at shorter
    rw [List.length_append]
    omega
  have read := readElements_joined (starts_write element) reads rest values _ enough
  unfold Shape.read
  rw [skipBlanks_cons (by decide)]
  simp only [read, endList_close]

mutual

/-- A written value is read back, whatever delimits it. -/
theorem Shape.read_write : (shape : Shape) → shape.IsFaithful → ∀ (value : shape.Datum)
    (rest : List Char), IsDelimited rest →
      shape.read (shape.write value ++ rest) = .ok (value, rest)
  | .text, _, value, rest, _ => by
      rw [Shape.write, Shape.read, readString_writeText]
      exact congrArg (fun text => Except.ok (text, rest)) String.ofList_toList
  | .flag, _, value, rest, _ => by
      rw [Shape.write, Shape.read]
      exact readFlag_writeFlag value rest
  | .count name bound, small, value, rest, delimited => by
      rw [Shape.write, Shape.read]
      exact readCount_toDigits name small value delimited
  | .choice tags, different, index, rest, _ => by
      rw [Shape.write, Shape.read]
      exact readChoice_writeText different index rest
  | .sequence element, faithful, values, rest, _ => by
      have read := read_array (element.read_write faithful) values rest
      rw [Shape.write, List.cons_append, List.cons_append, List.append_assoc]
      exact read
  | .record title sparse fields, faithful, values, rest, _ => by
      have reads := fields.membersRead faithful (fields.filled values)
      have read :=
        @read_writeObject title _ _ _ _ _ reads (fields.complete_filled sparse values) rest
      rw [writeObject, ← fields.writeMembers_eq values] at read
      rw [Shape.write]
      exact read

theorem Fields.membersRead : (fields : Fields) → fields.IsFaithful → ∀ values : fields.Partial,
    MembersRead fields.readMember (fields.presentMembers values) fields.unread values
  | .nil, _, _ => .nil _
  | .cons name shape fields, ⟨shapeFaithful, different, faithful⟩, (value, values) => by
      -- The members of the later fields pass the first field by, whether it is read or not.
      have other : name ∉ (fields.presentMembers values).map Prod.fst :=
        fun member => different (fields.presentMembers_subset values member)
      have later := (fields.membersRead faithful values).behind other value
      cases value with
      | none => exact later
      | some value =>
          refine .cons (fun rest delimited => ?_) later
          have read := shape.read_write shapeFaithful value rest delimited
          refine (readMember_same String.ofList_toList (none, fields.unread) rfl _).trans ?_
          rw [readColon_colon, Except.bind, read]
          rfl

end

theorem Shape.parse_ofList {shape : Shape} {text : List Char} {value : shape.Datum}
    (read : shape.read text = .ok (value, [])) :
    shape.parse (String.ofList text) = .ok value := by
  rw [Shape.parse, String.toList_ofList, read]
  rfl

/-- An object with some of the fields of a record is read as the record, if the others may be
missing. -/
theorem Shape.parse_writeObject {title : String} {sparse : Bool} {fields : Fields}
    (faithful : fields.IsFaithful) {values : fields.Partial} {data : fields.Data}
    (complete : fields.complete sparse values = .ok data) :
    (Shape.record title sparse fields).parse
        (String.ofList (writeObject (fields.presentMembers values))) =
      .ok data := by
  have read := @read_writeObject title _ _ _ _ _ (fields.membersRead faithful values) complete []
  rw [List.append_nil] at read
  exact Shape.parse_ofList read

end KeyStore.Json

namespace KeyStore.Recorded

open Json

theorem parse_eq_ok_iff {α : Type} [Recorded α] {text : String} {value : α} :
    parse α text = .ok value ↔ (shape α).parse text = .ok (toDatum value) := by
  unfold parse
  cases (shape α).parse text with
  | error fault => simp
  | ok datum =>
      simp only [Except.ok.injEq]
      constructor
      · rintro rfl
        exact (toDatum_ofDatum datum).symm
      · rintro rfl
        exact ofDatum_toDatum value

theorem parse_serialize {α : Type} [Recorded α] (faithful : (shape α).IsFaithful) (value : α) :
    parse α (serialize value) = .ok value := by
  have read := (shape α).read_write faithful (toDatum value) [] IsDelimited.nil
  rw [List.append_nil] at read
  rw [parse, serialize, Shape.parse_ofList read]
  simp only [ofDatum_toDatum]

end KeyStore.Recorded
