import KeyStore.Proofs.Command.OptionPlaces

/-!
# The form of command lines

A command line is a row of options, a command, and what stands behind it: options again, and at most
one operand. The parser reads exactly these lines. An option that is put into a line, or taken out
of it, changes the value of its setting and nothing else.
-/

namespace KeyStore.Arguments

/-- What stands behind a command: options, and at most one operand, among them or behind the mark
that ends them. -/
inductive Tail (command : CommandName) : List String → Given → Option Operand → Prop
  | options {texts : List String} {given : Given}
      (row : Row (.within command) .nothing texts given .arguments) :
      Tail command texts given none
  | mark {texts behind : List String} {given : Given} {operand : Option Operand}
      (row : Row (.within command) .nothing texts given (.mark behind))
      (last : command.readLast behind = .ok operand) : Tail command texts given operand
  | operand {texts rest : List String} {text : String} {given after : Given} {ending : Ending}
      {operand : Operand} (row : Row (.within command) .nothing texts given (.plain text rest))
      (read : command.readOperand text = .ok operand)
      (behind : Row (.within command) given rest after ending)
      (alone : noOperand ending = .ok ()) : Tail command texts after (some operand)

/-- A whole command line: what is given before the command, the command, and what is given
behind it. -/
inductive Line : List String → Given → CommandName → Given → Option Operand → Prop
  | behind {texts rest : List String} {name : String} {outer inner : Given}
      {command : CommandName} {operand : Option Operand}
      (row : Row .top .nothing texts outer (.plain name rest))
      (named : CommandName.ofText? name = some command) (tail : Tail command rest inner operand) :
      Line texts outer command inner operand

/-- The invocation that follows from the parts of a command line. -/
def complete (environment : Environment) (before : Option String) (command : CommandName)
    (given : Given) (operand : Option Operand) : Except Stop Invocation := do
  let inner ← orVariable environment storeVariable given.store
  let built ← build environment command given operand
  let outer ← orVariable environment storeVariable before
  return ⟨if given.store.isSome then inner else outer, built⟩

section Reading

variable {environment : Environment} {texts : List String} {command : CommandName}
  {given outer inner : Given} {operand : Option Operand} {invocation : Invocation}

theorem readCommand_eq_ok_iff :
    readCommand command texts = .ok (given, operand) ↔ Tail command texts given operand := by
  constructor
  · intro read
    obtain ⟨⟨first, ending⟩, options, read⟩ := exists_of_bind_eq_ok read
    have row := row_of_readOptions options
    cases ending with
    | arguments =>
        obtain ⟨rfl, rfl⟩ := Prod.mk.inj (Except.ok.inj read)
        exact .options row
    | mark behind =>
        obtain ⟨last, isLast, made⟩ := exists_of_bind_eq_ok read
        obtain ⟨rfl, rfl⟩ := Prod.mk.inj (Except.ok.inj made)
        exact .mark row isLast
    | plain text rest =>
        obtain ⟨value, isValue, read⟩ := exists_of_bind_eq_ok read
        obtain ⟨⟨after, ending⟩, behind, read⟩ := exists_of_bind_eq_ok read
        obtain ⟨_, alone, made⟩ := exists_of_bind_eq_ok read
        obtain ⟨rfl, rfl⟩ := Prod.mk.inj (Except.ok.inj made)
        exact .operand row isValue (row_of_readOptions behind) alone
  · intro tail
    cases tail with
    | options row =>
        rw [readCommand, row.readOptions_eq]
        rfl
    | mark row last =>
        rw [readCommand, row.readOptions_eq]
        simp only [bind, Except.bind, last, pure, Except.pure]
    | operand row read behind alone =>
        rw [readCommand, row.readOptions_eq]
        simp only [bind, Except.bind, read, behind.readOptions_eq, alone, pure, Except.pure]

theorem Line.read_eq (line : Line texts outer command inner operand) (environment : Environment) :
    read environment texts = complete environment outer.store command inner operand := by
  cases line with
  | behind row named tail =>
      rw [read, row.readOptions_eq]
      simp only [bind, Except.bind, named, readInvocation, readCommand_eq_ok_iff.mpr tail]
      rfl

/-- Whatever the parser accepts is a command line. -/
theorem exists_line_of_read (accepted : read environment texts = .ok invocation) :
    ∃ outer command inner operand, Line texts outer command inner operand ∧
      complete environment outer.store command inner operand = .ok invocation := by
  obtain ⟨⟨outer, ending⟩, options, found⟩ := exists_of_bind_eq_ok accepted
  cases ending with
  | arguments => contradiction
  | mark rest => contradiction
  | plain name rest =>
      cases named : CommandName.ofText? name with
      | none =>
          simp only [named] at found
          contradiction
      | some command =>
          simp only [named] at found
          obtain ⟨⟨inner, operand⟩, behind, _⟩ := exists_of_bind_eq_ok found
          have line : Line texts outer command inner operand :=
            .behind (row_of_readOptions options) named (readCommand_eq_ok_iff.mp behind)
          exact ⟨outer, command, inner, operand, line,
            (line.read_eq environment).symm.trans accepted⟩

theorem Line.unique {otherOuter otherInner : Given} {other : CommandName}
    {otherOperand : Option Operand} (line : Line texts outer command inner operand)
    (same : Line texts otherOuter other otherInner otherOperand) :
    outer = otherOuter ∧ command = other ∧ inner = otherInner ∧ operand = otherOperand := by
  cases line with
  | behind row named tail =>
      cases same with
      | behind sameRow sameNamed sameTail =>
          obtain ⟨rfl, sameEnding⟩ := Prod.mk.inj
            (Except.ok.inj (row.readOptions_eq.symm.trans sameRow.readOptions_eq))
          obtain ⟨rfl, rfl⟩ := Ending.plain.inj sameEnding
          obtain rfl := Option.some.inj (named.symm.trans sameNamed)
          obtain ⟨rfl, rfl⟩ := Prod.mk.inj (Except.ok.inj
            ((readCommand_eq_ok_iff.mpr tail).symm.trans (readCommand_eq_ok_iff.mpr sameTail)))
          exact ⟨rfl, rfl, rfl, rfl⟩

end Reading

section Options

variable {front back words : List String} {command : CommandName} {given outer inner : Given}
  {operand : Option Operand} {setting : Setting} {value : String}

theorem Tail.value_eq_none {texts : List String} (tail : Tail command texts given operand)
    (lacks : LacksOption setting texts) : given.value setting = none := by
  cases tail with
  | options row => exact (row.value_eq lacks).trans (Given.value_nothing setting)
  | mark row last => exact (row.value_eq lacks).trans (Given.value_nothing setting)
  | operand row read behind alone =>
      have first := (row.value_eq lacks).trans (Given.value_nothing setting)
      obtain ⟨front, place, rfl⟩ := row.exists_front
      exact (behind.value_eq (lacks.of_append place)).trans first

theorem Line.value_eq_none {texts : List String} (line : Line texts outer command inner operand)
    (lacks : LacksOption setting texts) :
    outer.value setting = none ∧ inner.value setting = none := by
  cases line with
  | behind row named tail =>
      refine ⟨(row.value_eq lacks).trans (Given.value_nothing setting), tail.value_eq_none ?_⟩
      obtain ⟨front, place, rfl⟩ := row.exists_front
      exact lacks.of_append place

theorem Tail.insert (kept : setting ≠ .purpose) (place : IsOptionPlace front)
    (written : Choice.Writes (.setting setting value) words) (filled : value ≠ "")
    (allowed : (Level.within command).allows setting = true) (free : given.value setting = none)
    (tail : Tail command (front ++ back) given operand) :
    Tail command (front ++ words ++ back) (given.withValue setting (some value)) operand := by
  cases tail with
  | options row =>
      rcases row.insert kept place written filled allowed free with inside | ⟨_, _, _, stop, _⟩
      · exact .options inside
      · contradiction
  | mark row last =>
      rcases row.insert kept place written filled allowed free with inside | ⟨_, _, _, stop, _⟩
      · exact .mark inside last
      · contradiction
  | @operand rest text first _ ending operand row read behind alone =>
      have notYet := behind.value_eq_none free
      -- The place is in front of the operand, or behind it in the second row.
      rcases row.insert kept place written filled allowed notYet with
        inside | ⟨_, others, open', stop, through⟩
      · exact .operand inside read (behind.withValue (free.trans notYet.symm) (some value)) alone
      · obtain ⟨rfl, rfl⟩ := Ending.plain.inj stop
        rcases behind.insert kept open' written filled allowed free with
          inside | ⟨_, _, _, rfl, _⟩
        · exact .operand through read inside alone
        · contradiction

theorem Tail.erase (kept : setting ≠ .purpose) (place : IsOptionPlace front)
    (written : Choice.Writes (.setting setting value) words)
    (tail : Tail command (front ++ words ++ back) given operand) :
    (Level.within command).allows setting = true ∧
      Tail command (front ++ back) (given.withValue setting none) operand := by
  cases tail with
  | options row =>
      rcases row.erase kept place written with ⟨allowed, _, inside⟩ | ⟨_, _, _, stop, _⟩
      · exact ⟨allowed, .options inside⟩
      · contradiction
  | mark row last =>
      rcases row.erase kept place written with ⟨allowed, _, inside⟩ | ⟨_, _, _, stop, _⟩
      · exact ⟨allowed, .mark inside last⟩
      · contradiction
  | @operand rest text first _ ending operand row read behind alone =>
      rcases row.erase kept place written with
        ⟨allowed, filled, inside⟩ | ⟨_, others, open', stop, through⟩
      · have last := behind.value_eq_some filled
        exact ⟨allowed, .operand inside read (behind.withValue (last.trans filled.symm) none) alone⟩
      · obtain ⟨rfl, rfl⟩ := Ending.plain.inj stop
        rcases behind.erase kept open' written with ⟨allowed, _, inside⟩ | ⟨_, _, _, rfl, _⟩
        · exact ⟨allowed, .operand through read inside alone⟩
        · contradiction

/-- An option more gives its value to its setting, before the command or behind it. -/
theorem Line.insert (kept : setting ≠ .purpose) (place : IsOptionPlace front)
    (written : Choice.Writes (.setting setting value) words) (filled : value ≠ "")
    (allowedBefore : Level.top.allows setting = true)
    (allowed : (Level.within command).allows setting = true)
    (freeBefore : outer.value setting = none) (free : inner.value setting = none)
    (line : Line (front ++ back) outer command inner operand) :
    Line (front ++ words ++ back) (outer.withValue setting (some value)) command inner operand ∨
      Line (front ++ words ++ back) outer command (inner.withValue setting (some value))
        operand := by
  cases line with
  | behind row named tail =>
      rcases row.insert kept place written filled allowedBefore freeBefore with
        inside | ⟨_, others, open', stop, through⟩
      · exact .inl (.behind inside named tail)
      · obtain ⟨rfl, rfl⟩ := Ending.plain.inj stop
        exact .inr (.behind through named (tail.insert kept open' written filled allowed free))

/-- An option less leaves its setting without a value, before the command or behind it. -/
theorem Line.erase (kept : setting ≠ .purpose) (place : IsOptionPlace front)
    (written : Choice.Writes (.setting setting value) words)
    (line : Line (front ++ words ++ back) outer command inner operand) :
    (Level.top.allows setting = true ∧
        Line (front ++ back) (outer.withValue setting none) command inner operand) ∨
      (Level.within command).allows setting = true ∧
        Line (front ++ back) outer command (inner.withValue setting none) operand := by
  cases line with
  | behind row named tail =>
      rcases row.erase kept place written with
        ⟨allowed, _, inside⟩ | ⟨_, others, open', stop, through⟩
      · exact .inl ⟨allowed, .behind inside named tail⟩
      · obtain ⟨rfl, rfl⟩ := Ending.plain.inj stop
        obtain ⟨allowed, bare⟩ := tail.erase kept open' written
        exact .inr ⟨allowed, .behind through named bare⟩

end Options

end KeyStore.Arguments
