import KeyStore.Command.Arguments
import KeyStore.Proofs.Outcomes

/-!
# Command lines

What command lines are read as. Options are followed by their values, and of the variables only
those that stand in for options are looked at.
-/

namespace KeyStore.Arguments

section Variables

variable {left right : Environment}

theorem orVariable_congr {name : String} (same : left name = right name) (given : Option String) :
    orVariable left name given = orVariable right name given := by
  unfold orVariable
  rw [same]

/-- Only two variables have a say in what a command line is read as. -/
theorem read_congr (sameStore : left storeVariable = right storeVariable)
    (sameFile : left passwordFileVariable = right passwordFileVariable) (texts : List String) :
    read left texts = read right texts := by
  have store := fun given => orVariable_congr sameStore given
  have file := fun given => orVariable_congr sameFile given
  simp only [read, readInvocation, build, store, file]

end Variables

end Arguments

namespace Arguments

section Options

variable {environment : Environment}

theorem orVariable_eq_ok {name : String} {given result : Option String}
    (accepted : orVariable environment name given = .ok result) :
    result = given.or (environment name) := by
  unfold orVariable at accepted
  split at accepted
  case h_1 value _ _ =>
    exact (Except.ok.inj accepted).symm
  case h_2 value set =>
    rw [set]
    split at accepted
    · contradiction
    · exact (Except.ok.inj accepted).symm
  case h_3 unset =>
    rw [unset]
    exact (Except.ok.inj accepted).symm

end Options

def IsValue (text : String) : Prop :=
  text ≠ "" ∧ Argument.ofText text = .plain

section Options

variable {level : Level} {given next : Given} {option value text : String} {name : List Char}

theorem readOptions_setting {setting : Setting}
    (isNamed : Argument.ofText option = .named name none)
    (isSetting : Setting.ofName? name = some setting) (isValue : IsValue value)
    (put : given.put? level setting value = some next) (rest : List String) :
    readOptions level given (option :: value :: rest) = readOptions level next rest := by
  rw [readOptions, isNamed]
  simp only [isSetting, isValue.2, put]
  rfl

theorem readOptions_switch {switch : Switch} (isNamed : Argument.ofText option = .named name none)
    (noSetting : Setting.ofName? name = none) (isSwitch : Switch.ofName? name = some switch)
    (turned : given.turnOn level switch = .ok next) (rest : List String) :
    readOptions level given (option :: rest) = readOptions level next rest := by
  rw [readOptions, isNamed]
  simp only [noSetting, isSwitch, turned]

theorem readOptions_plain (plain : Argument.ofText text = .plain) (rest : List String) :
    readOptions level given (text :: rest) = .ok (given, .plain text rest) := by
  rw [readOptions, plain]

end Options

section ProtectedKeys

variable {environment : Environment} {store path text : String} {version : UInt32}

theorem orVariable_of_ne_empty {name : String} (notEmpty : environment name ≠ some "") :
    orVariable environment name none = .ok (environment name) := by
  unfold orVariable
  cases value : environment name with
  | none => rfl
  | some value => exact if_neg fun empty => notEmpty (by rw [value, empty])

theorem readOptions_store (isStore : IsValue store) (rest : List String) :
    readOptions .top .nothing ("--store" :: store :: rest) =
      readOptions .top { Given.nothing with store := some store } rest := by
  have put : Given.nothing.put? .top .store store =
      some { Given.nothing with store := some store } := by
    exact if_neg (not_or.mpr ⟨isStore.1, by decide⟩)
  exact readOptions_setting rfl rfl isStore put rest

theorem readCommand_key {rest : List String} {given : Given} (plain : Argument.ofText text = .plain)
    (isVersion : parseVersion? text = some version)
    (read : readOptions (.within .key) .nothing rest = .ok (given, .arguments)) :
    readCommand .key (text :: rest) = .ok (given, some (.version version)) := by
  have operand : CommandName.key.readOperand text = .ok (.version version) := by
    rw [CommandName.readOperand, CommandName.operand?, isVersion]
    rfl
  rw [readCommand, readOptions_plain plain]
  show (CommandName.key.readOperand text >>= _) = _
  rw [operand]
  show (readOptions (.within .key) .nothing rest >>= _) = _
  rw [read]
  rfl

theorem readOptions_protected : readOptions (.within .key) .nothing ["--pbe"] =
    .ok ({ Given.nothing with isProtected := true }, .arguments) := by
  rw [readOptions_switch rfl rfl rfl rfl, readOptions]

theorem readOptions_passwordFile (isPath : IsValue path) :
    readOptions (.within .key) .nothing ["--pbe", "--password-file", path] =
      .ok (⟨none, some path, none, true⟩, .arguments) := by
  have put : ({ Given.nothing with isProtected := true } : Given).put? (.within .key)
      .passwordFile path = some ⟨none, some path, none, true⟩ := by
    exact if_neg (not_or.mpr ⟨isPath.1, by decide⟩)
  rw [readOptions_switch rfl rfl rfl rfl, readOptions_setting rfl rfl isPath put, readOptions]

/-- A command line for a protected key, whose store and password file are options. -/
theorem read_key_of_options (isStore : IsValue store) (isPath : IsValue path)
    (plain : Argument.ofText text = .plain) (isVersion : parseVersion? text = some version)
    (noEmpty : environment storeVariable ≠ some "") :
    read environment ["--store", store, "key", text, "--pbe", "--password-file", path] =
      .ok ⟨some store, .key version true (some path)⟩ := by
  have options : readOptions .top .nothing
      ["--store", store, "key", text, "--pbe", "--password-file", path] =
        .ok ({ Given.nothing with store := some store },
          .plain "key" [text, "--pbe", "--password-file", path]) := by
    rw [readOptions_store isStore]
    exact readOptions_plain rfl _
  have command := readCommand_key plain isVersion (readOptions_passwordFile isPath)
  rw [read, options]
  show readInvocation environment (some store) .key _ = _
  rw [readInvocation, command]
  show (orVariable environment storeVariable none >>= _) = _
  rw [orVariable_of_ne_empty noEmpty]
  rfl

/-- A command line for a protected key, for whose store and password file there are variables. -/
theorem read_key_of_variables (plain : Argument.ofText text = .plain)
    (isVersion : parseVersion? text = some version)
    (noEmptyStore : environment storeVariable ≠ some "")
    (noEmptyFile : environment passwordFileVariable ≠ some "") :
    read environment ["key", text, "--pbe"] =
      .ok ⟨environment storeVariable, .key version true (environment passwordFileVariable)⟩ := by
  have options : readOptions .top .nothing ["key", text, "--pbe"] =
      .ok (.nothing, .plain "key" [text, "--pbe"]) := readOptions_plain rfl _
  have command := readCommand_key plain isVersion readOptions_protected
  rw [read, options]
  show readInvocation environment none .key _ = _
  rw [readInvocation, command]
  show (orVariable environment storeVariable none >>= _) = _
  rw [orVariable_of_ne_empty noEmptyStore]
  show ((build environment .key _ _) >>= _) = _
  rw [build]
  show ((orVariable environment passwordFileVariable none >>= _) >>= _) = _
  rw [orVariable_of_ne_empty noEmptyFile]
  rfl

end ProtectedKeys

end KeyStore.Arguments
