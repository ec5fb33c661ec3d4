import KeyStore.Proofs.Command.Dependence
import KeyStore.Proofs.Command.LineForms

/-!
# Who looks at passwords

Only the command for a protected key of a store looks for a password. Every other run is the same
whatever the sources of passwords hold, and whether or not a file is given for the password.
-/

namespace KeyStore

def Command.withoutPasswordFile : Command → Command
  | .key version isProtected _ => .key version isProtected none
  | other => other

def Invocation.withoutPasswordFile (invocation : Invocation) : Invocation :=
  { invocation with command := invocation.command.withoutPasswordFile }

namespace Invocation

variable {invocation other : Invocation}

theorem inputPath?_withoutPasswordFile (invocation : Invocation) :
    invocation.withoutPasswordFile.inputPath? = invocation.inputPath? := by
  obtain ⟨store, command⟩ := invocation
  cases command <;> cases store <;> rfl

/-- No password is needed without a store, nor by a command other than that for a protected key. -/
theorem not_needsPassword
    (unneeded : invocation.store = none ∨
      ∀ version file, invocation.command ≠ .key version true file) :
    ∀ file, ¬invocation.NeedsPassword file := by
  rintro _ needs
  cases needs with
  | key =>
      rcases unneeded with noStore | otherCommand
      · contradiction
      · exact otherCommand _ _ rfl

theorem needsPassword_withoutPasswordFile_iff :
    (∃ file, invocation.withoutPasswordFile.NeedsPassword file) ↔
      ∃ file, invocation.NeedsPassword file := by
  obtain ⟨store, command⟩ := invocation
  constructor
  · rintro ⟨file, needs⟩
    generalize form : withoutPasswordFile ⟨store, command⟩ = bare at needs
    cases needs with
    | key =>
        obtain ⟨rfl, same⟩ := Invocation.mk.inj form
        cases command with
        | key version isProtected file =>
            obtain ⟨rfl, rfl, _⟩ := Command.key.inj same
            exact ⟨file, .key⟩
        | metadata => contradiction
        | importKey importer path => contradiction
  · rintro ⟨file, needs⟩
    cases needs with
    | key => exact ⟨none, .key⟩

/-- Where no password is needed, the password file has no part in what is done. -/
theorem action_withoutPasswordFile (unneeded : ∀ file, ¬invocation.NeedsPassword file)
    (surroundings : Surroundings) :
    invocation.withoutPasswordFile.action surroundings = invocation.action surroundings := by
  obtain ⟨store, command⟩ := invocation
  cases command with
  | metadata => rfl
  | importKey importer path => rfl
  | key version isProtected file =>
      cases isProtected with
      | false => rfl
      | true =>
          cases store with
          | none => rfl
          | some path => exact absurd .key (unneeded file)

theorem run_eq_of_withoutPasswordFile_eq {left right : Surroundings}
    (unneeded : ∀ file, ¬invocation.NeedsPassword file)
    (same : invocation.withoutPasswordFile = other.withoutPasswordFile)
    (sameEntry : ∀ path ∈ invocation.inputPath?, left.files path = right.files path)
    (sameSetting : left.environment logVariable = right.environment logVariable) :
    invocation.run left = other.run right := by
  have bareUnneeded : ∀ file, ¬invocation.withoutPasswordFile.NeedsPassword file := by
    intro file needs
    obtain ⟨file, needs⟩ := needsPassword_withoutPasswordFile_iff.mp ⟨file, needs⟩
    exact unneeded file needs
  have otherUnneeded : ∀ file, ¬other.NeedsPassword file := by
    intro file needs
    obtain ⟨file, needs⟩ := needsPassword_withoutPasswordFile_iff.mpr ⟨file, needs⟩
    rw [← same] at needs
    exact bareUnneeded file needs
  apply run_congr
  · rw [← action_withoutPasswordFile unneeded, ← action_withoutPasswordFile otherUnneeded, ← same]
    apply action_congr
    · intro path read
      rw [inputPath?_withoutPasswordFile] at read
      exact sameEntry path read
    · intro file needs
      exact absurd needs (bareUnneeded file)
  · exact sameSetting

end Invocation

namespace Arguments

/-- A command line is another one, perhaps with one option more, which gives a password file. -/
inductive AddsPasswordFile (bare : List String) : List String → Prop
  | nothing : AddsPasswordFile bare bare
  | option {front back words : List String} {file : String} (split : bare = front ++ back)
      (place : IsOptionPlace front) (written : Choice.Writes (.setting .passwordFile file) words) :
      AddsPasswordFile bare (front ++ words ++ back)

section PasswordFile

variable {left right environment : Environment} {bare texts : List String} {outer inner : Given}
  {command : CommandName} {given : Given} {operand : Option Operand}

/-- The option for the password file has its place behind the command only, and nothing else of the
command line depends on it. -/
theorem AddsPasswordFile.line (adds : AddsPasswordFile bare texts)
    (line : Line texts outer command inner operand) :
    ∃ given, Line bare outer command given operand ∧
      given.withValue .passwordFile none = inner.withValue .passwordFile none := by
  cases adds with
  | nothing => exact ⟨inner, line, rfl⟩
  | option split place written =>
      subst split
      rcases line.erase Setting.noConfusion place written with ⟨notAllowed, _⟩ | ⟨_, bareLine⟩
      · contradiction
      · exact ⟨_, bareLine, Given.withValue_withValue _ _ _ _⟩

theorem build_withoutPasswordFile {built : Command}
    (isBuilt : build environment command given operand = .ok built) :
    build (fun _ => none) command (given.withValue .passwordFile none) operand =
      .ok built.withoutPasswordFile := by
  have sameImporter : (given.withValue .passwordFile none).importer = given.importer := rfl
  unfold build at isBuilt ⊢
  rw [sameImporter]
  split at isBuilt
  case h_1 =>
    obtain rfl := Except.ok.inj isBuilt
    rfl
  case h_2 version =>
    obtain ⟨file, _, made⟩ := exists_of_bind_eq_ok isBuilt
    obtain rfl := Except.ok.inj made
    rfl
  case h_3 importer path _ _ =>
    obtain rfl := Except.ok.inj isBuilt
    rfl
  case h_4 => contradiction

/-- Invocations that are completed from the same parts, but for the password file, are the same but
for the password file. -/
theorem withoutPasswordFile_eq_of_complete {before : Option String} {other : Given}
    {first second : Invocation} (sameStore : left storeVariable = right storeVariable)
    (same : given.withValue .passwordFile none = other.withValue .passwordFile none)
    (leftMade : complete left before command given operand = .ok first)
    (rightMade : complete right before command other operand = .ok second) :
    first.withoutPasswordFile = second.withoutPasswordFile := by
  have sameInner : given.store = other.store := by
    show (given.withValue .passwordFile none).store = (other.withValue .passwordFile none).store
    rw [same]
  obtain ⟨inner, isInner, leftMade⟩ := exists_of_bind_eq_ok leftMade
  obtain ⟨built, isBuilt, leftMade⟩ := exists_of_bind_eq_ok leftMade
  obtain ⟨outer, isOuter, leftMade⟩ := exists_of_bind_eq_ok leftMade
  obtain ⟨otherInner, isOtherInner, rightMade⟩ := exists_of_bind_eq_ok rightMade
  obtain ⟨otherBuilt, isOtherBuilt, rightMade⟩ := exists_of_bind_eq_ok rightMade
  obtain ⟨otherOuter, isOtherOuter, rightMade⟩ := exists_of_bind_eq_ok rightMade
  obtain rfl := Except.ok.inj leftMade
  obtain rfl := Except.ok.inj rightMade
  have bareBuilt := build_withoutPasswordFile isBuilt
  rw [same, build_withoutPasswordFile isOtherBuilt] at bareBuilt
  rw [orVariable_eq_ok isInner, orVariable_eq_ok isOuter, orVariable_eq_ok isOtherInner,
    orVariable_eq_ok isOtherOuter, sameStore, sameInner]
  simp only [Invocation.withoutPasswordFile, Except.ok.inj bareBuilt]

/-- Command lines that differ at most in the option for the password file lead to invocations that
differ at most in the password file. -/
theorem AddsPasswordFile.same_invocation {leftTexts rightTexts : List String}
    {first second : Invocation} (leftAdds : AddsPasswordFile bare leftTexts)
    (rightAdds : AddsPasswordFile bare rightTexts)
    (sameStore : left storeVariable = right storeVariable)
    (leftAccepted : read left leftTexts = .ok first)
    (rightAccepted : read right rightTexts = .ok second) :
    first.withoutPasswordFile = second.withoutPasswordFile := by
  obtain ⟨outer, command, inner, operand, leftLine, leftMade⟩ := exists_line_of_read leftAccepted
  obtain ⟨_, _, otherInner, _, rightLine, rightMade⟩ := exists_line_of_read rightAccepted
  obtain ⟨given, leftBare, leftSame⟩ := leftAdds.line leftLine
  obtain ⟨other, rightBare, rightSame⟩ := rightAdds.line rightLine
  -- Both lines come from the same one, which has only one form.
  obtain ⟨rfl, rfl, rfl, rfl⟩ := leftBare.unique rightBare
  have same := leftSame.symm.trans rightSame
  exact withoutPasswordFile_eq_of_complete sameStore same leftMade rightMade

end PasswordFile

end Arguments

/-- Surroundings without an environment file, which differ at most in the variables that have to do
with passwords, in files, and in the input. -/
structure DifferAroundPasswords (left right : Surroundings) : Prop where
  leftLacks : left.LacksEnvironmentFile
  rightLacks : right.LacksEnvironmentFile
  sameVariables : ∀ name, name ≠ Password.variableName → name ≠ Arguments.passwordFileVariable →
    left.environment name = right.environment name

/-- Only the command for a protected key of a store looks at passwords. For any other command, and
for that command without a store, a run does not depend on the variable for the password, on the
input, or on the password file, whether it is an option, a variable or absent, and whatever it
holds, unless it is the entry or the PEM file that is read. Without a store, the command for a
protected key reports just that. -/
theorem only_protected_keys_depend_on_passwords {bare leftTexts rightTexts : List String}
    {left right : Surroundings} {first second : Invocation}
    (leftAdds : Arguments.AddsPasswordFile bare leftTexts)
    (rightAdds : Arguments.AddsPasswordFile bare rightTexts)
    (differ : DifferAroundPasswords left right)
    (leftAccepted : Arguments.read left.environment leftTexts = .ok first)
    (rightAccepted : Arguments.read right.environment rightTexts = .ok second)
    (sameEntry : ∀ path ∈ first.inputPath?, left.files path = right.files path)
    (unneeded : first.store = none ∨ ∀ version file, first.command ≠ .key version true file) :
    run leftTexts left = run rightTexts right ∧
      ∀ version file, first = ⟨none, .key version true file⟩ →
        run leftTexts left =
          ⟨.failure, "", [], "Error: no key store given; use --store or KZREAD_STORE\n"⟩ := by
  rw [run_of_accepted differ.leftLacks leftAccepted,
    run_of_accepted differ.rightLacks rightAccepted]
  constructor
  · have sameStore := differ.sameVariables Arguments.storeVariable (by decide) (by decide)
    have same := leftAdds.same_invocation rightAdds sameStore leftAccepted rightAccepted
    apply Invocation.run_eq_of_withoutPasswordFile_eq (Invocation.not_needsPassword unneeded) same
      sameEntry
    exact differ.sameVariables logVariable (by decide) (by decide)
  · rintro version file rfl
    have reported : Failure.noStore.report =
        "Error: no key store given; use --store or KZREAD_STORE\n" := by
      decide +kernel
    show (⟨.failure, "", [], Failure.noStore.report⟩ : Outcome) = _
    rw [reported]

theorem passwords_around_two_commands :
    let entry : FileAccess := .single "store/1" (Utf8.encode "contents")
    let others : FileAccess := fun path => if path = "word" then .ok [0xff] else entry path
    let environment (name value : String) : Environment := fun other =>
      if other = name then some value
      else if other = Arguments.storeVariable then some "store" else none
    let left : Surroundings := ⟨environment Password.variableName "word", entry, []⟩
    let right : Surroundings := ⟨environment Arguments.passwordFileVariable "word", others, [0xff]⟩
    let stranded (value : String) : Surroundings :=
      ⟨fun name => if name = Password.variableName then some value else none, entry, []⟩
    let missing := "Error: no key store given; use --store or KZREAD_STORE\n"
    (run ["key", "1", "--password-file", "word"] left = run ["key", "1"] right ∧
      (run ["key", "1"] right).output = "contents\n") ∧
    run ["key", "1", "--pbe"] (stranded "left") =
        run ["key", "--password-file=word", "1", "--pbe"] (stranded "right") ∧
      run ["key", "1", "--pbe"] (stranded "left") = ⟨.failure, "", [], missing⟩ := by
  intro entry others environment left right stranded missing
  have sameOthers : ∀ name, name ≠ Password.variableName → name ≠ Arguments.passwordFileVariable →
      left.environment name = right.environment name := by
    intro name notPassword notFile
    show (if _ then _ else _) = (if _ then _ else _)
    rw [if_neg notPassword, if_neg notFile]
  have sameStranded : ∀ name, name ≠ Password.variableName →
      name ≠ Arguments.passwordFileVariable →
      (stranded "left").environment name = (stranded "right").environment name := by
    intro name notPassword _
    show (if _ then _ else _) = (if _ then _ else _)
    rw [if_neg notPassword, if_neg notPassword]
  have behindVersion : Arguments.IsOptionPlace ["key", "1"] :=
    Arguments.isOptionPlace_of_plain (by decide)
  have behindKey : Arguments.IsOptionPlace ["key"] :=
    Arguments.isOptionPlace_of_plain (by decide)
  have withFile : Arguments.AddsPasswordFile ["key", "1"] ["key", "1", "--password-file", "word"] :=
    .option (List.append_nil ["key", "1"]).symm behindVersion
      (@Arguments.Choice.Writes.detached .passwordFile "word" (by decide))
  have withWord : Arguments.AddsPasswordFile ["key", "1", "--pbe"]
      ["key", "--password-file=word", "1", "--pbe"] :=
    .option (rfl : _ = ["key"] ++ ["1", "--pbe"]) behindKey
      (@Arguments.Choice.Writes.attached .passwordFile "word")
  have leftAccepted : Arguments.read left.environment ["key", "1", "--password-file", "word"] =
      .ok ⟨some "store", .key 1 false (some "word")⟩ := by
    decide +kernel
  have rightAccepted : Arguments.read right.environment ["key", "1"] =
      .ok ⟨some "store", .key 1 false (some "word")⟩ := by
    decide +kernel
  have sameEntry : ∀ path ∈ some "store/1", left.files path = right.files path := by
    intro path member
    obtain rfl := Option.some.inj member
    decide
  have bareAccepted : Arguments.read (stranded "left").environment ["key", "1", "--pbe"] =
      .ok ⟨none, .key 1 true none⟩ := by
    decide +kernel
  have wordAccepted : Arguments.read (stranded "right").environment
      ["key", "--password-file=word", "1", "--pbe"] = .ok ⟨none, .key 1 true (some "word")⟩ := by
    decide +kernel
  obtain ⟨same, _⟩ := only_protected_keys_depend_on_passwords withFile .nothing
    ⟨⟨.missing, rfl⟩, ⟨.missing, rfl⟩, sameOthers⟩ leftAccepted rightAccepted sameEntry (.inr nofun)
  obtain ⟨sameMissing, reported⟩ := only_protected_keys_depend_on_passwords .nothing withWord
    ⟨⟨.missing, rfl⟩, ⟨.missing, rfl⟩, sameStranded⟩ bareAccepted wordAccepted nofun (.inl rfl)
  exact ⟨⟨same, by decide +kernel⟩, sameMissing, reported 1 none rfl⟩

end KeyStore
