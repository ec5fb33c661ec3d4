import KeyStore.Proofs.Command.CommandLines
import KeyStore.Proofs.Command.Dependence
import Mathlib.Data.List.TakeDrop

/-!
# Equal passwords from different sources

A protected key is read in the same way whatever source the password comes from. A source that is
looked at hides the ones behind it.
-/

namespace KeyStore

namespace Password

def IsLineEnd (char : Char) : Prop :=
  char = '\n' ∨ char = '\r'

/-- The text can be told from the end of the line behind it. -/
structure IsLine (text : String) : Prop where
  noLineFeed : '\n' ∉ text.toList
  noReturn : text.toList.getLast? ≠ some '\r'

theorem IsLine.empty : IsLine "" where
  noLineFeed := by decide
  noReturn := by decide

theorem trimLineEnds_append {text : String} (isLine : IsLine text) {ends : List Char}
    (lineEnds : ∀ char ∈ ends, IsLineEnd char) :
    trimLineEnds (text ++ String.ofList ends) = text := by
  have dropped : ∀ char ∈ ends.reverse, (char = '\n' || char = '\r') = true := by
    intro char member
    rcases lineEnds char (List.mem_reverse.mp member) with feed | back
    · rw [feed]
      decide
    · rw [back]
      decide
  -- The last character of the text is no line end, so nothing of the text is dropped.
  have kept : text.toList.reverse.dropWhile (fun char => char = '\n' || char = '\r') =
      text.toList.reverse := by
    rcases form : text.toList.reverse with _ | ⟨last, before⟩
    · rfl
    · have isLast : text.toList.getLast? = some last := by
        rw [← List.head?_reverse, form]
        rfl
      have notFeed : last ≠ '\n' := by
        intro same
        apply isLine.noLineFeed
        rw [← same]
        exact List.mem_of_getLast? isLast
      have notReturn : last ≠ '\r' := by
        intro same
        apply isLine.noReturn
        rw [isLast, same]
      exact List.dropWhile_cons_of_neg (by simp [notFeed, notReturn])
  rw [trimLineEnds, String.toList_append, String.toList_ofList, List.reverse_append,
    List.dropWhile_append_of_pos dropped, kept, List.reverse_reverse, String.ofList_toList]

/-- What can stand behind the first line of an input: nothing, or a line feed with what follows. -/
def EndsLine (behind : Bytes) : Prop :=
  behind = [] ∨ ∃ rest, behind = 0x0a :: rest

theorem firstLine_append {text : String} (noLineFeed : '\n' ∉ text.toList) {behind : Bytes}
    (ended : EndsLine behind) :
    firstLine (Utf8.encode text ++ behind) = Utf8.encode text ++ behind.take 1 := by
  have plain : ∀ byte ∈ Utf8.encode text, decide (byte ≠ 0x0a) = true := by
    intro byte member
    apply decide_eq_true
    intro same
    rw [same] at member
    exact Utf8.lineFeed_notMem_encode noLineFeed member
  rw [firstLine, List.span_eq_takeWhile_dropWhile, List.takeWhile_append_of_pos plain,
    List.dropWhile_append_of_pos plain]
  rcases ended with rfl | ⟨rest, rfl⟩
  · rw [List.takeWhile_nil, List.dropWhile_nil, List.append_nil]
  · rw [List.takeWhile_cons_of_neg (by decide), List.dropWhile_cons_of_neg (by decide),
      List.append_nil]

theorem exists_textOf_firstLine {text : String} (noLineFeed : '\n' ∉ text.toList) {behind : Bytes}
    (ended : EndsLine behind) :
    ∃ ends : List Char, (∀ char ∈ ends, IsLineEnd char) ∧
      FileFault.textOf (firstLine (Utf8.encode text ++ behind)) =
        .ok (text ++ String.ofList ends) := by
  rw [firstLine_append noLineFeed ended]
  rcases ended with rfl | ⟨rest, rfl⟩
  · refine ⟨[], by simp, ?_⟩
    rw [List.take_nil, List.append_nil, FileFault.textOf, Utf8.decode?_encode]
    simp
  · refine ⟨['\n'], ?_, ?_⟩
    · intro char member
      exact .inl (List.mem_singleton.mp member)
    · have encoded : Utf8.encode text ++ (0x0a :: rest).take 1 =
          Utf8.encode (text ++ String.ofList ['\n']) := by
        rw [Utf8.encode_append]
        rfl
      rw [encoded, FileFault.textOf, Utf8.decode?_encode]

/-- The source of the password that is looked at holds the password in the way of that source: a
file with line ends behind it, the variable as it is, and the input as its first line. -/
inductive Supplies (surroundings : Surroundings) (password : String) : (file : Option String) → Prop
  | ofFile {path : String} {ends : List Char} (lineEnds : ∀ char ∈ ends, IsLineEnd char)
      (contents : surroundings.files path = .ok (Utf8.encode (password ++ String.ofList ends))) :
      Supplies surroundings password (some path)
  | ofVariable (set : surroundings.environment variableName = some password)
      (filled : password ≠ "") :
      Supplies surroundings password none
  | ofInput {returns : Nat} {behind : Bytes} (unset : IsUnset surroundings.environment)
      (ended : EndsLine behind)
      (input : surroundings.input =
        Utf8.encode (password ++ String.ofList (List.replicate returns '\r')) ++ behind) :
      Supplies surroundings password none

theorem resolves_of_supplies {surroundings : Surroundings} {password : String}
    {file : Option String} (isLine : IsLine password)
    (supplies : Supplies surroundings password file) :
    Resolves surroundings file password := by
  cases supplies with
  | @ofFile path ends lineEnds contents =>
      have resolves := Resolves.ofFile (FileAccess.readText_of_file contents)
      rw [trimLineEnds_append isLine lineEnds] at resolves
      exact resolves
  | ofVariable set filled => exact .ofVariable set filled
  | @ofInput returns behind unset ended input =>
      have noLineFeed : '\n' ∉
          (password ++ String.ofList (List.replicate returns '\r')).toList := by
        rw [String.toList_append, String.toList_ofList, List.mem_append, not_or]
        refine ⟨isLine.noLineFeed, ?_⟩
        intro member
        have same := List.eq_of_mem_replicate member
        contradiction
      obtain ⟨ends, lineEnds, read⟩ := exists_textOf_firstLine noLineFeed ended
      rw [← input] at read
      have resolves := Resolves.ofLine unset read
      -- The carriage returns and the line feed are trimmed in one go.
      have behindPassword : ∀ char ∈ List.replicate returns '\r' ++ ends, IsLineEnd char := by
        intro char member
        rcases List.mem_append.mp member with back | last
        · exact .inr (List.eq_of_mem_replicate back)
        · exact lineEnds char last
      rw [String.append_assoc, ← String.ofList_append,
        trimLineEnds_append isLine behindPassword] at resolves
      exact resolves

end Password

/-! ## Runs -/

/-- A command line for a protected key of a store, where no environment file supplies variables. -/
structure AsksForKey (arguments : List String) (surroundings : Surroundings) (store : String)
    (version : UInt32) (file : Option String) : Prop where
  noEnvironmentFile : ∃ fault, surroundings.files environmentFile = .error fault
  accepted : Arguments.read surroundings.environment arguments =
    .ok ⟨some store, .key version true file⟩

/-- The surroundings with another variable for the password, or none, and another input. -/
def Surroundings.withPassword (surroundings : Surroundings) (value : Option String)
    (input : Bytes) : Surroundings :=
  { surroundings with
    environment := fun name =>
      if name = Password.variableName then value else surroundings.environment name
    input := input }

namespace Surroundings

variable (surroundings : Surroundings) (value : Option String) (input : Bytes)

theorem environment_withPassword :
    (surroundings.withPassword value input).environment Password.variableName = value := by
  simp only [withPassword, if_pos]

theorem environment_withPassword_other {name : String} (other : name ≠ Password.variableName) :
    (surroundings.withPassword value input).environment name = surroundings.environment name := by
  simp only [withPassword, if_neg other]

end Surroundings

namespace AsksForKey

variable {arguments : List String} {surroundings : Surroundings} {store : String}
  {version : UInt32} {file : Option String}

theorem of_options {path text : String} {fault : FileFault}
    (absent : surroundings.files environmentFile = .error fault)
    (isStore : Arguments.IsValue store) (isPath : Arguments.IsValue path)
    (plain : Arguments.Argument.ofText text = .plain)
    (isVersion : Arguments.parseVersion? text = some version)
    (noEmpty : surroundings.environment Arguments.storeVariable ≠ some "") :
    AsksForKey ["--store", store, "key", text, "--pbe", "--password-file", path] surroundings store
      version (some path) where
  noEnvironmentFile := ⟨fault, absent⟩
  accepted := Arguments.read_key_of_options isStore isPath plain isVersion noEmpty

/-- The store and the password file are variables, the latter if there is one. -/
theorem of_variables {text : String} {fault : FileFault}
    (absent : surroundings.files environmentFile = .error fault)
    (isStore : surroundings.environment Arguments.storeVariable = some store) (filled : store ≠ "")
    (plain : Arguments.Argument.ofText text = .plain)
    (isVersion : Arguments.parseVersion? text = some version)
    (noEmpty : surroundings.environment Arguments.passwordFileVariable ≠ some "") :
    AsksForKey ["key", text, "--pbe"] surroundings store version
      (surroundings.environment Arguments.passwordFileVariable) where
  noEnvironmentFile := ⟨fault, absent⟩
  accepted := by
    rw [← isStore]
    apply Arguments.read_key_of_variables plain isVersion _ noEmpty
    rw [isStore]
    exact fun empty => filled (Option.some.inj empty)

theorem run_eq (asks : AsksForKey arguments surroundings store version file) :
    run arguments surroundings =
      Invocation.run ⟨some store, .key version true file⟩ surroundings :=
  run_of_accepted asks.noEnvironmentFile asks.accepted

theorem withPassword (asks : AsksForKey arguments surroundings store version file)
    (value : Option String) (input : Bytes) :
    AsksForKey arguments (surroundings.withPassword value input) store version file where
  noEnvironmentFile := asks.noEnvironmentFile
  accepted := by
    rw [← asks.accepted]
    apply Arguments.read_congr
    · exact surroundings.environment_withPassword_other value input (by decide)
    · exact surroundings.environment_withPassword_other value input (by decide)

theorem run_congr_of_resolve (asks : AsksForKey arguments surroundings store version file)
    {value other : Option String} {input otherInput : Bytes}
    (same :
      Password.resolve (surroundings.withPassword value input).environment surroundings.files
        input file =
      Password.resolve (surroundings.withPassword other otherInput).environment
        surroundings.files otherInput file) :
    run arguments (surroundings.withPassword value input) =
      run arguments (surroundings.withPassword other otherInput) := by
  rw [(asks.withPassword value input).run_eq, (asks.withPassword other otherInput).run_eq]
  apply Invocation.run_congr
  · apply Invocation.action_congr
    · intro path read
      rfl
    · intro source needs
      cases needs
      rw [Password.find, Password.find]
      exact congrArg (· >>= _) same
  · rfl

end AsksForKey

/-- Whatever source the password comes from, runs that read the same version with the same log
filter are the same. -/
theorem run_eq_of_supplies {store password : String} {version : UInt32} {left right : Surroundings}
    {leftArguments rightArguments : List String} {leftFile rightFile : Option String}
    (leftAsks : AsksForKey leftArguments left store version leftFile)
    (rightAsks : AsksForKey rightArguments right store version rightFile)
    (isLine : Password.IsLine password) (filled : password ≠ "")
    (leftSupplies : Password.Supplies left password leftFile)
    (rightSupplies : Password.Supplies right password rightFile)
    (sameSetting : left.environment logVariable = right.environment logVariable)
    (sameEntry : left.files ((StoreLocation.ofPath store).versionPath version) =
      right.files ((StoreLocation.ofPath store).versionPath version)) :
    run leftArguments left = run rightArguments right := by
  have leftOpens : Invocation.Opens left store true leftFile _ :=
    .withPassword (Password.resolves_of_supplies isLine leftSupplies) filled
  have rightOpens : Invocation.Opens right store true rightFile _ :=
    .withPassword (Password.resolves_of_supplies isLine rightSupplies) filled
  rw [leftAsks.run_eq, rightAsks.run_eq]
  apply Invocation.run_congr
  · rw [Invocation.action_of_opens leftOpens, Invocation.action_of_opens rightOpens]
    simp only [Reader.key, readEntry_congr sameEntry]
  · exact sameSetting

theorem run_of_supplies_empty {arguments : List String} {surroundings : Surroundings}
    {store : String} {version : UInt32} {file : Option String}
    (asks : AsksForKey arguments surroundings store version file)
    (supplies : Password.Supplies surroundings "" file) :
    (run arguments surroundings).code.number = 1 ∧
      (run arguments surroundings).output = "" ∧
      (run arguments surroundings).report = "Error: No password provided\n" := by
  have resolves := Password.resolves_of_supplies Password.IsLine.empty supplies
  have fails : Invocation.Fails surroundings ⟨some store, .key version true file⟩
      "No password provided" [] := .emptyPassword resolves
  obtain ⟨failure, sameContext, sameCauses, ends⟩ := Invocation.action_of_fails fails
  obtain ⟨code, output, report⟩ := Invocation.run_of_ends_error ends
  rw [asks.run_eq]
  refine ⟨congrArg ExitCode.number code, output, ?_⟩
  rw [report, Failure.report, sameContext, sameCauses]
  decide

/-- A protected key is read in the same way from whatever source the password comes. A file that is
given hides the variable and the input, and a variable that is not empty hides the input; one that
is empty counts as missing. A source that supplies the empty password makes the run fail. -/
theorem password_sources_are_equivalent_and_ordered (store : String) (version : UInt32) :
    (∀ (password : String) (left right : Surroundings) (leftArguments rightArguments : List String)
        (leftFile rightFile : Option String),
      AsksForKey leftArguments left store version leftFile →
      AsksForKey rightArguments right store version rightFile →
      Password.IsLine password → password ≠ "" →
      Password.Supplies left password leftFile → Password.Supplies right password rightFile →
      left.environment logVariable = right.environment logVariable →
      left.files ((StoreLocation.ofPath store).versionPath version) =
        right.files ((StoreLocation.ofPath store).versionPath version) →
      run leftArguments left = run rightArguments right) ∧
    ∀ (arguments : List String) (surroundings : Surroundings) (file : Option String),
      AsksForKey arguments surroundings store version file →
      (file ≠ none → ∀ value other input otherInput,
        run arguments (surroundings.withPassword value input) =
          run arguments (surroundings.withPassword other otherInput)) ∧
      (file = none → ∀ value input otherInput, value ≠ "" →
        run arguments (surroundings.withPassword (some value) input) =
          run arguments (surroundings.withPassword (some value) otherInput)) ∧
      (∀ input, run arguments (surroundings.withPassword (some "") input) =
        run arguments (surroundings.withPassword none input)) ∧
      (Password.Supplies surroundings "" file →
        (run arguments surroundings).code.number = 1 ∧
        (run arguments surroundings).output = "" ∧
        (run arguments surroundings).report = "Error: No password provided\n") := by
  constructor
  · intro password left right leftArguments rightArguments leftFile rightFile leftAsks rightAsks
      isLine filled leftSupplies rightSupplies sameSetting sameEntry
    exact run_eq_of_supplies leftAsks rightAsks isLine filled leftSupplies rightSupplies
      sameSetting sameEntry
  · intro arguments surroundings file asks
    refine ⟨?_, ?_, ?_, ?_⟩
    · intro given value other input otherInput
      apply asks.run_congr_of_resolve
      obtain ⟨path, rfl⟩ := Option.ne_none_iff_exists'.mp given
      rfl
    · intro notGiven value input otherInput filled
      apply asks.run_congr_of_resolve
      subst notGiven
      simp only [Password.resolve, Password.ofSurroundings,
        Surroundings.environment_withPassword, if_neg filled]
    · intro input
      apply asks.run_congr_of_resolve
      cases file with
      | some path => rfl
      | none =>
          rw [Password.resolve, Password.resolve, Password.ofSurroundings_of_unset,
            Password.ofSurroundings_of_unset]
          · exact .inl (surroundings.environment_withPassword none input)
          · exact .inr (surroundings.environment_withPassword (some "") input)
    · intro supplies
      exact run_of_supplies_empty asks supplies

theorem password_sources_of_one_password :
    let files : FileAccess := fun path =>
      if path = "file" then .ok (Utf8.encode "word\r\n")
      else if path = "ends" then .ok (Utf8.encode "\n")
      else .error .missing
    let environment : Environment := fun name =>
      if name = Arguments.storeVariable then some "store" else none
    let options := ["--store", "store", "key", "1", "--pbe", "--password-file"]
    let bare := ["key", "1", "--pbe"]
    let surroundings : Surroundings := ⟨environment, files, Utf8.encode "word\r\nmore"⟩
    run (options ++ ["file"]) surroundings = run bare surroundings ∧
      run (options ++ ["file"]) (surroundings.withPassword (some "other") []) =
        run (options ++ ["file"]) (surroundings.withPassword none [0xff]) ∧
      run bare (surroundings.withPassword (some "word") []) =
        run bare (surroundings.withPassword (some "word") [0xff]) ∧
      run bare (surroundings.withPassword (some "") []) =
        run bare (surroundings.withPassword none []) ∧
      (run (options ++ ["ends"]) surroundings).report = "Error: No password provided\n" := by
  intro files environment options bare surroundings
  have absent : files environmentFile = .error .missing := rfl
  have isStore : Arguments.IsValue "store" := ⟨by decide, by decide⟩
  have fromFile : AsksForKey (options ++ ["file"]) surroundings "store" 1 (some "file") :=
    .of_options absent isStore ⟨by decide, by decide⟩ rfl rfl (by decide)
  have fromEnds : AsksForKey (options ++ ["ends"]) surroundings "store" 1 (some "ends") :=
    .of_options absent isStore ⟨by decide, by decide⟩ rfl rfl (by decide)
  have fromInput : AsksForKey bare surroundings "store" 1 none :=
    .of_variables absent rfl isStore.1 rfl rfl (by decide)
  have isLine : Password.IsLine "word" := ⟨by decide, by decide⟩
  have inFile : Password.Supplies surroundings "word" (some "file") := by
    apply @Password.Supplies.ofFile surroundings "word" "file" ['\r', '\n']
    · simp [Password.IsLineEnd]
    · decide +kernel
  have inEnds : Password.Supplies surroundings "" (some "ends") := by
    apply @Password.Supplies.ofFile surroundings "" "ends" ['\n']
    · simp [Password.IsLineEnd]
    · decide +kernel
  have inInput : Password.Supplies surroundings "word" none := by
    apply @Password.Supplies.ofInput surroundings "word" 1 (0x0a :: Utf8.encode "more")
    · exact .inl rfl
    · exact .inr ⟨_, rfl⟩
    · decide +kernel
  obtain ⟨equivalent, ordered⟩ := password_sources_are_equivalent_and_ordered "store" 1
  obtain ⟨fileFirst, _, _, _⟩ := ordered _ _ _ fromFile
  obtain ⟨_, variableNext, emptyVariable, _⟩ := ordered _ _ _ fromInput
  obtain ⟨_, _, _, empty⟩ := ordered _ _ _ fromEnds
  refine ⟨?_, ?_, ?_, ?_, ?_⟩
  · exact equivalent "word" _ _ _ _ _ _ fromFile fromInput isLine (by decide) inFile inInput rfl rfl
  · exact fileFirst nofun _ _ _ _
  · exact variableNext rfl "word" _ _ (by decide)
  · exact emptyVariable []
  · exact (empty inEnds).2.2

end KeyStore
