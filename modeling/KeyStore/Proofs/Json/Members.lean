import KeyStore.Proofs.Json.RoundTrip

/-!
# What members give a record

The members of an object give a field its value if one of them has its name, and the field may be
missing if none has. Taking members one by one gives every field the same, in whatever order they
come and whatever other members are between them.
-/

namespace KeyStore.Json

def valuesNamed (name : String) (members : List (String × List Char)) : List (List Char) :=
  (members.filter fun member => member.1 = name).map Prod.snd

/-- The texts that stand for a field give it this value. Where none does, it is the blank value of a
field that may be missing; two never do. -/
def Shape.GivenBy (sparse : Bool) (shape : Shape) : List (List Char) → shape.Datum → Prop
  | [], value => sparse = true ∧ shape.blank? = some value
  | [only], value => shape.parse (String.ofList only) = .ok value
  | _ :: _ :: _, _ => False

/-- Every field has the value that the members of its name give it. -/
def Fields.GivenBy (sparse : Bool) (members : List (String × List Char)) :
    (fields : Fields) → fields.Data → Prop
  | .nil, _ => True
  | .cons name shape rest, values =>
      shape.GivenBy sparse (valuesNamed name members) values.1 ∧
        rest.GivenBy sparse members values.2

/-- Every field has the value that the element in its place gives it, and no element is left
over. -/
def Fields.GivenInOrder (sparse : Bool) :
    (fields : Fields) → List (List Char) → fields.Data → Prop
  | .nil, elements, _ => elements = []
  | .cons _ shape rest, elements, values =>
      shape.GivenBy sparse (elements.take 1) values.1 ∧
        rest.GivenInOrder sparse (elements.drop 1) values.2

/-- The members may stand for a field: no two have its name, the value of the one that has it stands
for a value of the field by itself, and it is there unless the field may be missing. -/
structure Shape.Admits (sparse : Bool) (members : List (String × List Char)) (name : String)
    (shape : Shape) : Prop where
  once : (members.map Prod.fst).count name ≤ 1
  parses : ∀ written, (name, written) ∈ members →
    ∃ value, shape.parse (String.ofList written) = .ok value
  present : sparse = false → name ∈ members.map Prod.fst

def Fields.Admit (sparse : Bool) (members : List (String × List Char)) : Fields → Prop
  | .nil => True
  | .cons name shape rest => shape.Admits sparse members name ∧ rest.Admit sparse members

theorem mem_valuesNamed {name : String} {members : List (String × List Char)}
    {written : List Char} :
    written ∈ valuesNamed name members ↔ (name, written) ∈ members := by
  simp only [valuesNamed, List.mem_map, List.mem_filter, decide_eq_true_eq, Prod.exists,
    exists_eq_right]

theorem length_valuesNamed (name : String) (members : List (String × List Char)) :
    (valuesNamed name members).length = (members.map Prod.fst).count name := by
  rw [valuesNamed, List.length_map, List.count_eq_countP, List.countP_map,
    List.countP_eq_length_filter]
  congr 1

theorem valuesNamed_eq_nil_iff {name : String} {members : List (String × List Char)} :
    valuesNamed name members = [] ↔ name ∉ members.map Prod.fst := by
  rw [← List.length_eq_zero_iff, length_valuesNamed, List.count_eq_zero]

/-- Members give a field a value exactly if they may stand for it. -/
theorem Shape.exists_givenBy_iff {sparse : Bool} {shape : Shape}
    (blank : sparse = true → shape.blank?.isSome) (members : List (String × List Char))
    (name : String) :
    (∃ value, shape.GivenBy sparse (valuesNamed name members) value) ↔
      shape.Admits sparse members name := by
  have absent := @valuesNamed_eq_nil_iff name members
  have single := length_valuesNamed name members
  have isMember (written : List Char) := @mem_valuesNamed name members written
  constructor
  · rintro ⟨value, given⟩
    constructor
    · rw [← single]
      match values : valuesNamed name members with
      | [] => exact Nat.zero_le 1
      | [only] => exact Nat.le_refl 1
      | _ :: _ :: _ =>
          rw [values] at given
          exact absurd given id
    · intro written member
      rw [← isMember] at member
      match values : valuesNamed name members with
      | [] =>
          rw [values] at member
          exact absurd member List.not_mem_nil
      | [only] =>
          rw [values] at member given
          rw [List.mem_singleton.mp member]
          exact ⟨value, given⟩
      | _ :: _ :: _ =>
          rw [values] at given
          exact absurd given id
    · intro notSparse
      by_contra missing
      rw [absent.mpr missing, notSparse] at given
      exact absurd given.1 (by decide)
  · rintro ⟨once, parses, present⟩
    rw [← single] at once
    match values : valuesNamed name members with
    | [] =>
        cases sparse with
        | false => exact absurd (present rfl) (absent.mp values)
        | true =>
            obtain ⟨value, isBlank⟩ := Option.isSome_iff_exists.mp (blank rfl)
            exact ⟨value, rfl, isBlank⟩
    | [only] =>
        refine parses only ((isMember only).mp ?_)
        rw [values]
        exact List.mem_singleton_self only
    | _ :: _ :: _ =>
        rw [values, List.length_cons, List.length_cons] at once
        omega

/-- Members give the fields of a record values exactly if they may stand for each of them. -/
theorem Fields.exists_givenBy_iff {sparse : Bool} (members : List (String × List Char)) :
    (fields : Fields) → (sparse = true → fields.blank?.isSome) →
    ((∃ data, fields.GivenBy sparse members data) ↔ fields.Admit sparse members)
  | .nil, _ => ⟨fun _ => True.intro, fun _ => ⟨(), True.intro⟩⟩
  | .cons name shape fields, blank => by
      have blanks (isSparse : sparse = true) :
          shape.blank?.isSome ∧ fields.blank?.isSome := by
        obtain ⟨data, isBlank⟩ := Option.isSome_iff_exists.mp (blank isSparse)
        rw [Fields.blank?] at isBlank
        obtain ⟨value, shapeBlank, isBlank⟩ := Option.bind_eq_some_iff.mp isBlank
        obtain ⟨values, fieldsBlank, _⟩ := Option.bind_eq_some_iff.mp isBlank
        exact ⟨Option.isSome_of_eq_some shapeBlank, Option.isSome_of_eq_some fieldsBlank⟩
      have first := shape.exists_givenBy_iff (fun isSparse => (blanks isSparse).1) members name
      have others := fields.exists_givenBy_iff members fun isSparse => (blanks isSparse).2
      rw [Admit, ← first, ← others]
      constructor
      · rintro ⟨data, given, givenOthers⟩
        exact ⟨⟨data.1, given⟩, data.2, givenOthers⟩
      · rintro ⟨⟨value, given⟩, data, givenOthers⟩
        exact ⟨(value, data), given, givenOthers⟩

/-- A field takes the value that a text stands for, unless it has one. -/
def Shape.fill (shape : Shape) (slot : Option shape.Datum) (written : List Char) :
    Option (Option shape.Datum) :=
  match slot, shape.parse (String.ofList written) with
  | none, .ok value => some (some value)
  | _, _ => none

def Fields.take : (fields : Fields) → fields.Partial → String × List Char → Option fields.Partial
  | .nil, _, _ => some ()
  | .cons name shape rest, values, member =>
      if member.1 = name then
        (shape.fill values.1 member.2).map fun slot => (slot, values.2)
      else
        (rest.take values.2 member).map fun others => (values.1, others)

theorem Shape.fill_eq_some_iff {shape : Shape} {slot after : Option shape.Datum}
    {written : List Char} :
    shape.fill slot written = some after ↔
      slot = none ∧ ∃ value, shape.parse (String.ofList written) = .ok value ∧
        after = some value := by
  unfold Shape.fill
  cases slot with
  | some value => simp
  | none =>
      cases shape.parse (String.ofList written) with
      | error fault => simp
      | ok value => simp [eq_comm]

theorem Fields.take_same_iff {field name : String} {shape : Shape} {fields : Fields}
    (same : name = field) {state after : (Fields.cons field shape fields).Partial}
    {written : List Char} :
    (Fields.cons field shape fields).take state (name, written) = some after ↔
      state.1 = none ∧ ∃ value, shape.parse (String.ofList written) = .ok value ∧
        after = (some value, state.2) := by
  rw [Fields.take, if_pos same]
  constructor
  · intro taken
    obtain ⟨slot, filled, rfl⟩ := Option.map_eq_some_iff.mp taken
    obtain ⟨unread, value, parsed, rfl⟩ := Shape.fill_eq_some_iff.mp filled
    exact ⟨unread, value, parsed, rfl⟩
  · rintro ⟨unread, value, parsed, rfl⟩
    exact Option.map_eq_some_iff.mpr
      ⟨some value, Shape.fill_eq_some_iff.mpr ⟨unread, value, parsed, rfl⟩, rfl⟩

theorem Fields.take_other_iff {field name : String} {shape : Shape} {fields : Fields}
    (different : name ≠ field) {state after : (Fields.cons field shape fields).Partial}
    {written : List Char} :
    (Fields.cons field shape fields).take state (name, written) = some after ↔
      ∃ others, fields.take state.2 (name, written) = some others ∧
        (state.1, others) = after := by
  rw [Fields.take, if_neg different]
  exact Option.map_eq_some_iff

/-! ## The order of the members -/

theorem valuesNamed_filter {name other : String} (different : name ≠ other)
    (members : List (String × List Char)) :
    valuesNamed name (members.filter fun member => member.1 ≠ other) =
      valuesNamed name members := by
  rw [valuesNamed, List.filter_filter, valuesNamed]
  congr 2
  funext member
  by_cases same : member.1 = name
  · simp [same, different]
  · simp [same]

theorem Fields.givenBy_congr {sparse : Bool} {members others : List (String × List Char)} :
    (fields : Fields) →
    (∀ name ∈ fields.names, valuesNamed name members = valuesNamed name others) →
    ∀ {data : fields.Data}, fields.GivenBy sparse members data ↔ fields.GivenBy sparse others data
  | .nil, _, _ => Iff.rfl
  | .cons name shape rest, same, data => by
      rw [GivenBy, GivenBy, same name List.mem_cons_self, rest.givenBy_congr fun other member =>
        same other (List.mem_cons_of_mem name member)]

/-- The members of its own name fill a field, and the others go to the other fields. -/
theorem Fields.foldlM_take_cons_iff {field : String} {shape : Shape} {fields : Fields}
    {members : List (String × List Char)}
    {before after : (Fields.cons field shape fields).Partial} :
    members.foldlM (Fields.cons field shape fields).take before = some after ↔
      (valuesNamed field members).foldlM shape.fill before.1 = some after.1 ∧
        (members.filter fun member => member.1 ≠ field).foldlM fields.take before.2 =
          some after.2 := by
  induction members generalizing before with
  | nil =>
      show some before = some after ↔ some before.1 = some after.1 ∧ some before.2 = some after.2
      rw [Option.some.injEq, Option.some.injEq, Option.some.injEq]
      exact Prod.ext_iff
  | cons member members inductionHypothesis =>
      rcases member with ⟨name, written⟩
      rw [List.foldlM_cons, Option.bind_eq_bind, Option.bind_eq_some_iff]
      simp only [inductionHypothesis]
      by_cases same : name = field
      · have named : valuesNamed field ((name, written) :: members) =
            written :: valuesNamed field members := by
          simp [valuesNamed, same]
        have others : ((name, written) :: members).filter (fun member => member.1 ≠ field) =
            members.filter fun member => member.1 ≠ field := by
          simp [same]
        rw [named, others, List.foldlM_cons, Option.bind_eq_bind, Option.bind_eq_some_iff]
        simp only [Fields.take_same_iff same, Shape.fill_eq_some_iff]
        constructor
        · rintro ⟨_, ⟨unread, value, parsed, rfl⟩, filled, taken⟩
          exact ⟨⟨some value, ⟨unread, value, parsed, rfl⟩, filled⟩, taken⟩
        · rintro ⟨⟨_, ⟨unread, value, parsed, rfl⟩, filled⟩, taken⟩
          exact ⟨(some value, before.2), ⟨unread, value, parsed, rfl⟩, filled, taken⟩
      · have named : valuesNamed field ((name, written) :: members) =
            valuesNamed field members := by
          simp [valuesNamed, same]
        have others : ((name, written) :: members).filter (fun member => member.1 ≠ field) =
            (name, written) :: members.filter fun member => member.1 ≠ field := by
          simp [same]
        rw [named, others, List.foldlM_cons, Option.bind_eq_bind, Option.bind_eq_some_iff]
        simp only [Fields.take_other_iff same]
        constructor
        · rintro ⟨_, ⟨between, taken, rfl⟩, filled, later⟩
          exact ⟨filled, between, taken, later⟩
        · rintro ⟨filled, between, taken, later⟩
          exact ⟨(before.1, between), ⟨between, taken, rfl⟩, filled, later⟩

theorem Shape.absent_eq_ok_iff {sparse : Bool} {name : String} {shape : Shape}
    {value : shape.Datum} :
    shape.absent sparse name = .ok value ↔ sparse = true ∧ shape.blank? = some value := by
  unfold Shape.absent
  split
  · next blank =>
      rw [blank]
      simp
  · next noBlank =>
      constructor
      · intro impossible
        contradiction
      · rintro ⟨rfl, blank⟩
        exact absurd blank (noBlank value rfl)

/-- A field is as it was read, or it may be missing and is blank. -/
def Shape.Completes (sparse : Bool) (shape : Shape) (slot : Option shape.Datum)
    (value : shape.Datum) : Prop :=
  slot = some value ∨ slot = none ∧ sparse = true ∧ shape.blank? = some value

theorem Fields.complete_cons_iff {sparse : Bool} {name : String} {shape : Shape} {fields : Fields}
    {values : (Fields.cons name shape fields).Partial}
    {data : (Fields.cons name shape fields).Data} :
    (Fields.cons name shape fields).complete sparse values = .ok data ↔
      shape.Completes sparse values.1 data.1 ∧ fields.complete sparse values.2 = .ok data.2 := by
  constructor
  · intro complete
    rw [Fields.complete] at complete
    split at complete
    · next value present =>
        split at complete
        · next others completed =>
            obtain rfl := Except.ok.inj complete
            exact ⟨.inl present, completed⟩
        · contradiction
    · next missing =>
        split at complete
        · next value absent =>
            split at complete
            · next others completed =>
                obtain rfl := Except.ok.inj complete
                exact ⟨.inr ⟨missing, Shape.absent_eq_ok_iff.mp absent⟩, completed⟩
            · contradiction
        · contradiction
  · rintro ⟨present | ⟨missing, blank⟩, completed⟩
    · rw [Fields.complete, present]
      simp only [completed]
      rfl
    · rw [Fields.complete, missing]
      simp only [Shape.absent_eq_ok_iff.mpr blank, completed]
      rfl

/-- Texts that stand for a field give it the value that filling it with them gives. -/
theorem Shape.givenBy_iff {sparse : Bool} {shape : Shape} {written : List (List Char)}
    {value : shape.Datum} :
    shape.GivenBy sparse written value ↔
      ∃ slot, written.foldlM shape.fill none = some slot ∧ shape.Completes sparse slot value := by
  match written with
  | [] =>
      constructor
      · intro given
        exact ⟨none, rfl, .inr ⟨rfl, given⟩⟩
      · rintro ⟨slot, unfilled, present | ⟨_, blank⟩⟩
        · rw [← Option.some.inj unfilled] at present
          contradiction
        · exact blank
  | [only] =>
      simp only [List.foldlM_cons, Option.bind_eq_bind, Option.bind_eq_some_iff,
        Shape.fill_eq_some_iff]
      constructor
      · intro parsed
        exact ⟨some value, ⟨_, ⟨True.intro, value, parsed, rfl⟩, rfl⟩, .inl rfl⟩
      · rintro ⟨slot, ⟨_, ⟨_, found, parsed, rfl⟩, filled⟩, present | ⟨missing, _⟩⟩
        · rw [← Option.some.inj filled] at present
          rw [← Option.some.inj present]
          exact parsed
        · rw [← Option.some.inj filled] at missing
          contradiction
  | first :: second :: others =>
      simp only [List.foldlM_cons, Option.bind_eq_bind, Option.bind_eq_some_iff,
        Shape.fill_eq_some_iff]
      constructor
      · intro impossible
        exact absurd impossible id
      · rintro ⟨slot, ⟨_, ⟨_, found, _, rfl⟩, _, ⟨filled, _⟩, _⟩, _⟩
        contradiction

theorem foldlM_take_nil (members : List (String × List Char)) :
    members.foldlM Fields.nil.take () = some () := by
  induction members with
  | nil => rfl
  | cons member members inductionHypothesis => exact inductionHypothesis

/-- Taking the members one by one gives every field what the members of its name give it. -/
theorem Fields.givenBy_iff {sparse : Bool} : (fields : Fields) → fields.IsFaithful →
    ∀ {members : List (String × List Char)} {data : fields.Data},
      (∃ after, members.foldlM fields.take fields.unread = some after ∧
        fields.complete sparse after = .ok data) ↔ fields.GivenBy sparse members data
  | .nil, _, members, data => by
      constructor
      · intro _
        exact True.intro
      · intro _
        exact ⟨(), foldlM_take_nil members, rfl⟩
  | .cons name shape fields, ⟨_, different, faithful⟩, members, data => by
      have others := @Fields.givenBy_iff sparse fields faithful
        (members.filter fun member => member.1 ≠ name) data.2
      -- No other field has this name, so its members make no difference to the others.
      have sameValues := @Fields.givenBy_congr sparse _ _ fields (fun other isField =>
        valuesNamed_filter (ne_of_mem_of_not_mem isField different) members) data.2
      rw [GivenBy, ← sameValues, ← others, Shape.givenBy_iff]
      simp only [Fields.foldlM_take_cons_iff, Fields.complete_cons_iff]
      constructor
      · rintro ⟨after, ⟨filled, taken⟩, completes, completed⟩
        exact ⟨⟨after.1, filled, completes⟩, after.2, taken, completed⟩
      · rintro ⟨⟨slot, filled, completes⟩, after, taken, completed⟩
        exact ⟨(slot, after), ⟨filled, taken⟩, completes, completed⟩

end KeyStore.Json
