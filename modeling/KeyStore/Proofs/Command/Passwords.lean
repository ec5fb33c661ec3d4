import KeyStore.Command.Run

/-!
# Where a password stands

Which password a command finds, told by the source that holds it. An empty password is refused
whatever source it is from.
-/

namespace KeyStore.Password

def IsUnset (environment : Environment) : Prop :=
  environment variableName = none ∨ environment variableName = some ""

/-- The password that stands in the source which is looked at first: the file that is given, or
else the variable, or else the first line of the input. -/
inductive Resolves (surroundings : Surroundings) :
    (file : Option String) → (password : String) → Prop
  | ofFile {path text : String} (read : surroundings.files.readText path = .ok text) :
      Resolves surroundings (some path) (trimLineEnds text)
  | ofVariable {password : String} (set : surroundings.environment variableName = some password)
      (filled : password ≠ "") : Resolves surroundings none password
  | ofLine {text : String} (unset : IsUnset surroundings.environment)
      (read : FileFault.textOf (firstLine surroundings.input) = .ok text) :
      Resolves surroundings none (trimLineEnds text)

/-- The source of the password cannot be read. What is said about it is a context with causes. -/
inductive Unreadable (surroundings : Surroundings) :
    (file : Option String) → (context : String) → (causes : List String) → Prop
  | ofFile {path : String} {fault : FileFault}
      (failed : surroundings.files.readText path = .error fault) :
      Unreadable surroundings (some path) ("failed to read password file '" ++ path ++ "'")
        [fault.message]
  | ofLine {fault : FileFault} (unset : IsUnset surroundings.environment)
      (failed : FileFault.textOf (firstLine surroundings.input) = .error fault) :
      Unreadable surroundings none fault.message []

variable {surroundings : Surroundings} {file : Option String} {password : String}

theorem ofSurroundings_of_unset {environment : Environment} (unset : IsUnset environment)
    (input : Bytes) : ofSurroundings environment input = ofInput input := by
  rcases unset with absent | empty
  · rw [ofSurroundings, absent]
  · rw [ofSurroundings, empty]
    exact if_pos rfl

theorem resolve_of_resolves (resolves : Resolves surroundings file password) :
    resolve surroundings.environment surroundings.files surroundings.input file =
      .ok password := by
  cases resolves with
  | ofFile read => rw [resolve, ofFile, read]
  | ofVariable set filled =>
      rw [resolve, ofSurroundings, set]
      exact if_neg filled
  | ofLine unset read => rw [resolve, ofSurroundings_of_unset unset, ofInput, read]

theorem find_of_resolves (resolves : Resolves surroundings file password) :
    find surroundings.environment surroundings.files surroundings.input file =
      if password = "" then .error .noPassword else .ok password := by
  rw [find, resolve_of_resolves resolves]
  rfl

theorem find_of_unreadable {context : String} {causes : List String}
    (unreadable : Unreadable surroundings file context causes) :
    ∃ failure : Failure,
      failure.context = context ∧ failure.causes = causes ∧
        find surroundings.environment surroundings.files surroundings.input file =
          .error failure := by
  cases unreadable with
  | @ofFile path fault failed =>
      refine ⟨.passwordFile path fault, rfl, rfl, ?_⟩
      rw [find, resolve, ofFile, failed]
      rfl
  | @ofLine fault unset failed =>
      refine ⟨.passwordLine fault, rfl, rfl, ?_⟩
      rw [find, resolve, ofSurroundings_of_unset unset, ofInput, failed]
      rfl

end KeyStore.Password
