import KeyStore.Proofs.Command.OptionRows

/-!
# Places for options

An option can stand behind texts that do not end the options and that do not end in an option which
waits for its value. Put there, it gives its value to its setting and changes nothing else, neither
in a row of options nor in a whole command line; taken away, it leaves the others as they are.
-/

namespace KeyStore.Arguments

theorem Setting.option_ne_mark (setting : Setting) : setting.option ≠ "--" := by
  cases setting <;> decide +kernel

theorem Setting.option_ne_attached (setting other : Setting) (value : String) :
    setting.option ≠ other.option ++ "=" ++ value := by
  intro same
  have named := Argument.ofText_option setting
  rw [same, Argument.ofText_attached] at named
  exact Option.some_ne_none value (Argument.named.inj named).2

theorem Setting.option_not_plain (setting : Setting) :
    Argument.ofText setting.option ≠ .plain := by
  rw [Argument.ofText_option]
  exact Argument.noConfusion

/-- An option can stand behind the texts: no mark ends the options in them, and no option in them
still waits for its value. -/
inductive IsOptionPlace : List String → Prop
  | start : IsOptionPlace []
  | behind {text : String} {rest : List String} (notMark : text ≠ "--")
      (complete : ∀ setting : Setting, text ≠ setting.option) (place : IsOptionPlace rest) :
      IsOptionPlace (text :: rest)
  | behindValue {setting : Setting} {value : String} {rest : List String}
      (place : IsOptionPlace rest) : IsOptionPlace (setting.option :: value :: rest)

theorem IsOptionPlace.append {front behind : List String} (place : IsOptionPlace front)
    (open' : IsOptionPlace behind) : IsOptionPlace (front ++ behind) := by
  induction place with
  | start => exact open'
  | behind notMark complete _ inductionHypothesis =>
      exact .behind notMark complete inductionHypothesis
  | behindValue _ inductionHypothesis => exact .behindValue inductionHypothesis

theorem isOptionPlace_of_plain {texts : List String}
    (plain : ∀ text ∈ texts, Argument.ofText text = .plain) : IsOptionPlace texts := by
  induction texts with
  | nil => exact .start
  | cons text rest inductionHypothesis =>
      obtain ⟨isPlain, others⟩ := List.forall_mem_cons.mp plain
      apply IsOptionPlace.behind _ _ (inductionHypothesis others)
      · rintro rfl
        contradiction
      · rintro setting rfl
        exact setting.option_not_plain isPlain

/-- No option for a setting stands at any place for options. -/
def LacksOption (setting : Setting) (texts : List String) : Prop :=
  ∀ front text back, texts = front ++ text :: back → IsOptionPlace front →
    text ≠ setting.option ∧ ∀ value, text ≠ setting.option ++ "=" ++ value

theorem LacksOption.of_append {setting : Setting} {front rest : List String}
    (place : IsOptionPlace front) (lacks : LacksOption setting (front ++ rest)) :
    LacksOption setting rest := by
  rintro others text back rfl open'
  apply lacks (front ++ others) text back _ (place.append open')
  rw [List.append_assoc]

theorem lacksOption_of_forall {setting : Setting} {texts : List String}
    (others : ∀ text ∈ texts, ¬setting.option.toList <+: text.toList) :
    LacksOption setting texts := by
  rintro front text back rfl _
  have other := others text (by simp)
  constructor
  · rintro rfl
    exact other (List.prefix_refl _)
  · rintro value rfl
    apply other
    rw [String.toList_append, String.toList_append, List.append_assoc]
    exact List.prefix_append _ _

def Ending.before : Ending → List String → Ending
  | .arguments, _ => .arguments
  | .plain text behind, rest => .plain text (behind ++ rest)
  | .mark behind, rest => .mark (behind ++ rest)

section Rows

variable {level : Level} {given next middle after : Given} {ending : Ending}
  {texts front rest words : List String} {choice : Choice} {setting : Setting}

theorem Choice.Writes.isOptionPlace (written : choice.Writes words) : IsOptionPlace words := by
  cases written with
  | protection =>
      apply IsOptionPlace.behind _ _ .start
      · decide
      · intro setting
        cases setting <;> decide +kernel
  | detached plain =>
      exact .behindValue .start
  | @attached setting value =>
      apply IsOptionPlace.behind _ _ .start
      · intro isMark
        have named := Argument.ofText_attached setting value
        rw [isMark] at named
        contradiction
      · intro other same
        exact other.option_ne_attached setting value same.symm

/-- A first argument is no option, or it ends the options, or it writes one, perhaps together with
the second. -/
theorem Row.cons_cases {text : String} (row : Row level given (text :: rest) after ending) :
    (Argument.ofText text = .plain ∧ after = given ∧ ending = .plain text rest) ∨
      text = "--" ∨
      ∃ choice next, given.take? level choice = some next ∧
        (choice.Writes [text] ∧ Row level next rest after ending ∨
          ∃ value behind, rest = value :: behind ∧ choice.Writes [text, value] ∧
            Row level next behind after ending) := by
  generalize form : text :: rest = texts at row
  cases row with
  | arguments =>
      contradiction
  | plain isPlain =>
      obtain ⟨rfl, rfl⟩ := List.cons.inj form
      exact .inl ⟨isPlain, rfl, rfl⟩
  | mark =>
      exact .inr (.inl (List.cons.inj form).1)
  | option written taken behind =>
      refine .inr (.inr ⟨_, _, taken, ?_⟩)
      cases written with
      | protection =>
          obtain ⟨rfl, rfl⟩ := List.cons.inj form
          exact .inl ⟨.protection, behind⟩
      | detached plain =>
          obtain ⟨rfl, rfl⟩ := List.cons.inj form
          exact .inr ⟨_, _, rfl, .detached plain, behind⟩
      | attached =>
          obtain ⟨rfl, rfl⟩ := List.cons.inj form
          exact .inl ⟨.attached, behind⟩

theorem Row.append_arguments (row : Row level given front middle .arguments)
    (behind : Row level middle rest after ending) :
    Row level given (front ++ rest) after ending := by
  generalize stop : Ending.arguments = first at row
  induction row with
  | arguments => exact behind
  | plain isPlain => contradiction
  | mark => contradiction
  | option written taken _ inductionHypothesis =>
      rw [List.append_assoc]
      exact .option written taken (inductionHypothesis behind stop)

theorem Row.append (row : Row level given front after ending) (stops : ending ≠ .arguments)
    (rest : List String) : Row level given (front ++ rest) after (ending.before rest) := by
  induction row with
  | arguments => contradiction
  | plain isPlain => exact .plain isPlain
  | mark => exact .mark
  | option written taken _ inductionHypothesis =>
      rw [List.append_assoc]
      exact .option written taken (inductionHypothesis stops)

/-- A row that goes on behind a place for options is read up to there first, unless it has come to
its end before. -/
theorem Row.split (place : IsOptionPlace front)
    (row : Row level given (front ++ rest) after ending) :
    (∃ middle, Row level given front middle .arguments ∧ Row level middle rest after ending) ∨
      ∃ text behind, Row level given front after (.plain text behind) ∧ IsOptionPlace behind ∧
        ending = .plain text (behind ++ rest) := by
  -- By induction on the place: what it passes over is a whole option, or the argument that ends
  -- the row, behind which the row is not read any further.
  induction place generalizing given with
  | start =>
      exact .inl ⟨given, .arguments, row⟩
  | @behind text others notMark complete place inductionHypothesis =>
      rcases row.cons_cases with ⟨isPlain, rfl, rfl⟩ | isMark | ⟨choice, next, taken, written⟩
      · exact .inr ⟨text, others, .plain isPlain, place, rfl⟩
      · exact absurd isMark notMark
      · rcases written with ⟨written, others⟩ | ⟨_, _, _, written, _⟩
        · rcases inductionHypothesis others with
            ⟨middle, first, second⟩ | ⟨last, behind, first, open', same⟩
          · exact .inl ⟨middle, .option written taken first, second⟩
          · exact .inr ⟨last, behind, .option written taken first, open', same⟩
        · cases written with
          | detached plain => exact absurd rfl (complete _)
  | @behindValue setting value others place inductionHypothesis =>
      rcases row.cons_cases with ⟨isPlain, _, _⟩ | isMark | ⟨choice, next, taken, written⟩
      · exact absurd isPlain setting.option_not_plain
      · exact absurd isMark setting.option_ne_mark
      · rcases written with ⟨written, _⟩ | ⟨same, behind, form, written, others⟩
        · generalize spelled : setting.option = option at written
          cases written with
          | protection =>
              cases setting <;> exact absurd spelled (by decide +kernel)
          | attached => exact absurd spelled (setting.option_ne_attached _ _)
        · obtain ⟨rfl, rfl⟩ := List.cons.inj form
          rcases inductionHypothesis others with
            ⟨middle, first, second⟩ | ⟨last, behind, first, open', same⟩
          · exact .inl ⟨middle, .option written taken first, second⟩
          · exact .inr ⟨last, behind, .option written taken first, open', same⟩

end Rows

/-! ## Values of settings -/

/-- The value of a setting. Of a purpose only the importer is kept. -/
def Given.value (given : Given) : Setting → Option String
  | .store => given.store
  | .passwordFile => given.passwordFile
  | .purpose => none

def Given.withValue (given : Given) : Setting → Option String → Given
  | .store, value => { given with store := value }
  | .passwordFile, value => { given with passwordFile := value }
  | .purpose, _ => given

section Values

variable {level : Level} {given next after : Given} {ending : Ending}
  {texts front back words : List String} {choice : Choice} {setting : Setting} {value : String}

theorem Given.value_nothing (setting : Setting) : nothing.value setting = none := by
  cases setting <;> rfl

@[simp]
theorem Given.value_withValue (given : Given) (kept : setting ≠ .purpose) (value : Option String) :
    (given.withValue setting value).value setting = value := by
  cases setting with
  | purpose => contradiction
  | store => rfl
  | passwordFile => rfl

theorem Given.value_withValue_other {other : Setting} (given : Given) (different : other ≠ setting)
    (value : Option String) :
    (given.withValue other value).value setting = given.value setting := by
  cases other with
  | purpose => rfl
  | store =>
      cases setting with
      | store => contradiction
      | passwordFile => rfl
      | purpose => rfl
  | passwordFile =>
      cases setting with
      | passwordFile => contradiction
      | store => rfl
      | purpose => rfl

theorem Given.withValue_comm {other : Setting} (given : Given) (different : other ≠ setting)
    (value changed : Option String) :
    (given.withValue setting changed).withValue other value =
      (given.withValue other value).withValue setting changed := by
  cases other with
  | purpose => rfl
  | store =>
      cases setting with
      | store => contradiction
      | passwordFile => rfl
      | purpose => rfl
  | passwordFile =>
      cases setting with
      | passwordFile => contradiction
      | store => rfl
      | purpose => rfl

@[simp]
theorem Given.withValue_withValue (given : Given) (setting : Setting)
    (value other : Option String) :
    (given.withValue setting value).withValue setting other = given.withValue setting other := by
  cases setting <;> rfl

@[simp]
theorem Given.withValue_value (given : Given) (setting : Setting) :
    given.withValue setting (given.value setting) = given := by
  cases setting <;> rfl

theorem Given.put?_eq (kept : setting ≠ .purpose) :
    given.put? level setting value =
      if value = "" ∨ ¬level.allows setting = true then none
      else if (given.value setting).isNone then some (given.withValue setting (some value))
      else none := by
  cases setting with
  | purpose => contradiction
  | store => rfl
  | passwordFile => rfl

theorem Given.put?_eq_some_iff (kept : setting ≠ .purpose) :
    given.put? level setting value = some next ↔
      (value ≠ "" ∧ level.allows setting = true) ∧ given.value setting = none ∧
        next = given.withValue setting (some value) := by
  rw [put?_eq kept]
  by_cases refused : value = "" ∨ ¬level.allows setting = true
  · rw [if_pos refused]
    constructor
    · intro impossible
      contradiction
    · rintro ⟨⟨filled, allowed⟩, _⟩
      rcases refused with empty | notAllowed
      · exact absurd empty filled
      · exact absurd allowed notAllowed
  · obtain ⟨filled, allowed⟩ := not_or.mp refused
    rw [if_neg refused, Option.ite_none_right_eq_some, Option.isNone_iff_eq_none, Option.some.injEq,
      eq_comm (a := next)]
    exact ⟨fun put => ⟨⟨filled, not_not.mp allowed⟩, put⟩, And.right⟩

theorem Given.put?_purpose_eq_some (put : given.put? level .purpose value = some next) :
    ∃ importer, next = { given with importer := some importer } ∧
      ∀ other : Given, other.importer = given.importer →
        other.put? level .purpose value = some { other with importer := some importer } := by
  unfold put? at put
  split at put
  case isTrue =>
    contradiction
  case isFalse accepted =>
    simp only at put
    split at put
    case h_1 importer free means =>
      refine ⟨importer, (Option.some.inj put).symm, ?_⟩
      intro other same
      rw [put?, if_neg accepted]
      simp only [same, free, means]
    case h_2 =>
      contradiction

/-- An option gives a setting its first value, or it does the same whatever value the setting
has. -/
theorem Given.take?_cases (setting : Setting) (taken : given.take? level choice = some next) :
    (given.value setting = none ∧ setting ≠ .purpose ∧ ∃ value,
        choice = .setting setting value ∧ next = given.withValue setting (some value)) ∨
      next.value setting = given.value setting ∧
        ∀ value, (given.withValue setting value).take? level choice =
          some (next.withValue setting value) := by
  cases choice with
  | protection =>
      right
      rw [take?] at taken
      obtain ⟨possible, made⟩ := Option.ite_none_right_eq_some.mp taken
      obtain rfl := Option.some.inj made
      constructor
      · cases setting <;> rfl
      · intro value
        cases setting <;> exact if_pos possible
  | setting other value =>
      by_cases isPurpose : other = .purpose
      · subst isPurpose
        right
        obtain ⟨importer, rfl, same⟩ := put?_purpose_eq_some taken
        constructor
        · cases setting <;> rfl
        · intro value
          cases setting <;> exact same _ rfl
      · obtain ⟨accepted, free, rfl⟩ := (put?_eq_some_iff isPurpose).mp taken
        by_cases same : other = setting
        · subst same
          exact .inl ⟨free, isPurpose, value, rfl, rfl⟩
        · right
          constructor
          · exact given.value_withValue_other same (some value)
          · intro changed
            refine (put?_eq_some_iff isPurpose).mpr ⟨accepted, ?_, ?_⟩
            · rw [given.value_withValue_other (Ne.symm same), free]
            · exact (given.withValue_comm same (some value) changed).symm

theorem Row.value_eq_some (row : Row level given texts after ending)
    (given' : given.value setting = some value) : after.value setting = some value := by
  induction row with
  | arguments => exact given'
  | plain isPlain => exact given'
  | mark => exact given'
  | option written taken behind inductionHypothesis =>
      apply inductionHypothesis
      rcases Given.take?_cases setting taken with ⟨free, _⟩ | ⟨same, _⟩
      · rw [free] at given'
        contradiction
      · exact same.trans given'

theorem Row.value_eq_none (row : Row level given texts after ending)
    (free : after.value setting = none) : given.value setting = none := by
  cases before : given.value setting with
  | none => rfl
  | some early =>
      rw [row.value_eq_some before] at free
      contradiction

/-- A row that does not give a setting its value does the same whatever value the setting has. -/
theorem Row.withValue (row : Row level given texts after ending)
    (same : after.value setting = given.value setting) (value : Option String) :
    Row level (given.withValue setting value) texts (after.withValue setting value) ending := by
  induction row with
  | arguments => exact .arguments
  | plain isPlain => exact .plain isPlain
  | mark => exact .mark
  | option written taken behind inductionHypothesis =>
      rcases Given.take?_cases setting taken with
        ⟨free, kept, first, _, rfl⟩ | ⟨unchanged, take⟩
      · have last := behind.value_eq_some (Given.value_withValue _ kept (some first))
        rw [same, free] at last
        contradiction
      · exact .option written (take value) (inductionHypothesis (same.trans unchanged.symm))

theorem Choice.Writes.not_lacksOption (written : Choice.Writes (.setting setting value) words) :
    ¬LacksOption setting (words ++ back) := by
  intro lacks
  cases written with
  | detached plain => exact (lacks [] setting.option _ rfl .start).1 rfl
  | attached => exact (lacks [] _ back rfl .start).2 value rfl

/-- Without an option for it, a setting keeps the value that it has. -/
theorem Row.value_eq (row : Row level given texts after ending)
    (lacks : LacksOption setting texts) :
    after.value setting = given.value setting := by
  induction row with
  | arguments => rfl
  | plain isPlain => rfl
  | mark => rfl
  | option written taken behind inductionHypothesis =>
      rw [inductionHypothesis (lacks.of_append written.isOptionPlace)]
      rcases Given.take?_cases setting taken with ⟨_, _, value, rfl, _⟩ | ⟨unchanged, _⟩
      · exact absurd lacks written.not_lacksOption
      · exact unchanged

/-- Options can stand behind an argument that is none, as they can in front of it. -/
theorem Row.exists_front {text : String} {rest : List String}
    (row : Row level given texts after (.plain text rest)) :
    ∃ front, IsOptionPlace front ∧ texts = front ++ rest := by
  generalize stop : Ending.plain text rest = ending at row
  induction row with
  | arguments => contradiction
  | mark => contradiction
  | plain isPlain =>
      obtain ⟨rfl, rfl⟩ := Ending.plain.inj stop
      exact ⟨[text], isOptionPlace_of_plain (List.forall_mem_singleton.mpr isPlain), rfl⟩
  | option written _ _ inductionHypothesis =>
      obtain ⟨front, place, rfl⟩ := inductionHypothesis stop
      exact ⟨_ ++ front, written.isOptionPlace.append place, (List.append_assoc _ _ _).symm⟩

/-! ## Options more and less -/

theorem Row.of_words (written : choice.Writes words)
    (row : Row level given (words ++ back) after ending) :
    ∃ next, given.take? level choice = some next ∧ Row level next back after ending := by
  have read := row.readOptions_eq
  rw [readOptions_option written] at read
  cases taken : given.take? level choice with
  | none =>
      rw [taken] at read
      contradiction
  | some next =>
      rw [taken] at read
      exact ⟨next, rfl, row_of_readOptions read⟩

/-- An option more gives its value to its setting, in the row or behind it. -/
theorem Row.insert (kept : setting ≠ .purpose) (place : IsOptionPlace front)
    (written : Choice.Writes (.setting setting value) words) (filled : value ≠ "")
    (allowed : level.allows setting = true) (free : after.value setting = none)
    (row : Row level given (front ++ back) after ending) :
    Row level given (front ++ words ++ back) (after.withValue setting (some value)) ending ∨
      ∃ text behind, IsOptionPlace behind ∧ ending = .plain text (behind ++ back) ∧
        Row level given (front ++ words ++ back) after (.plain text (behind ++ words ++ back)) := by
  rw [List.append_assoc]
  rcases row.split place with ⟨middle, first, second⟩ | ⟨text, behind, first, open', rfl⟩
  · left
    have notYet := second.value_eq_none free
    have put := (Given.put?_eq_some_iff kept).mpr ⟨⟨filled, allowed⟩, notYet, rfl⟩
    apply first.append_arguments
    exact .option written put (second.withValue (free.trans notYet.symm) (some value))
  · right
    refine ⟨text, behind, open', rfl, ?_⟩
    rw [List.append_assoc]
    exact first.append Ending.noConfusion (words ++ back)

theorem Row.erase (kept : setting ≠ .purpose) (place : IsOptionPlace front)
    (written : Choice.Writes (.setting setting value) words)
    (row : Row level given (front ++ words ++ back) after ending) :
    (level.allows setting = true ∧ after.value setting = some value ∧
        Row level given (front ++ back) (after.withValue setting none) ending) ∨
      ∃ text behind, IsOptionPlace behind ∧ ending = .plain text (behind ++ words ++ back) ∧
        Row level given (front ++ back) after (.plain text (behind ++ back)) := by
  rw [List.append_assoc] at row
  rcases row.split place with ⟨middle, first, second⟩ | ⟨text, behind, first, open', rfl⟩
  · left
    obtain ⟨next, taken, rest⟩ := second.of_words written
    obtain ⟨⟨_, allowed⟩, free, rfl⟩ := (Given.put?_eq_some_iff kept).mp taken
    have last := rest.value_eq_some (Given.value_withValue _ kept (some value))
    have bare := rest.withValue (last.trans (Given.value_withValue _ kept _).symm) none
    have before : (middle.withValue setting (some value)).withValue setting none = middle := by
      rw [Given.withValue_withValue, ← free, Given.withValue_value]
    rw [before] at bare
    exact ⟨allowed, last, first.append_arguments bare⟩
  · right
    refine ⟨text, behind, open', ?_, first.append Ending.noConfusion back⟩
    rw [List.append_assoc]

end Values

end KeyStore.Arguments
