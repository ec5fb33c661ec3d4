import KeyStore.Proofs.Command.Dependence
import KeyStore.Proofs.Command.LineForms

/-!
# The option for the store

Wherever the option for the store stands, it acts like the variable for the store, and it wins over
that variable. Imports do not look at either.
-/

namespace KeyStore

/-- The environment with another value of a variable, or with none. -/
def Environment.withVariable (environment : Environment) (name : String) (value : Option String) :
    Environment := fun other =>
  if other = name then value else environment other

theorem Environment.withVariable_same (environment : Environment) (name : String)
    (value : Option String) : environment.withVariable name value name = value :=
  if_pos rfl

theorem Environment.withVariable_other (environment : Environment) {name other : String}
    (different : other ≠ name) (value : Option String) :
    environment.withVariable name value other = environment other :=
  if_neg different

/-- The surroundings with another value of the variable for the store, or with none. -/
def Surroundings.withStore (surroundings : Surroundings) (value : Option String) : Surroundings :=
  { surroundings with
    environment := surroundings.environment.withVariable Arguments.storeVariable value }

theorem Invocation.run_withStore (invocation : Invocation) (surroundings : Surroundings)
    (value : Option String) :
    invocation.run (surroundings.withStore value) = invocation.run surroundings := by
  have other : ∀ name, name ≠ Arguments.storeVariable →
      (surroundings.withStore value).environment name = surroundings.environment name :=
    fun name different => surroundings.environment.withVariable_other different value
  apply run_congr
  · apply action_congr
    · intro path read
      rfl
    · intro file needs
      apply Password.find_congr
      · exact other _ (by decide)
      · intro path given
        rfl
      · rfl
  · exact other _ (by decide)

namespace Arguments

section Store

variable {environment : Environment} {front back words texts : List String} {directory : String}
  {command : CommandName} {given : Given} {operand : Option Operand}

theorem build_withValue_store (environment : Environment) (command : CommandName) (given : Given)
    (operand : Option Operand) (value : Option String) :
    build environment command (given.withValue .store value) operand =
      build environment command given operand := by
  cases command <;> rfl

theorem build_withVariable_store (environment : Environment) (value : Option String)
    (command : CommandName) (given : Given) (operand : Option Operand) :
    build (environment.withVariable storeVariable value) command given operand =
      build environment command given operand := by
  have file := orVariable_congr
    (environment.withVariable_other (by decide : passwordFileVariable ≠ storeVariable) value)
  simp only [build, file]

/-- The variable for the store is the store if no option is given for it. -/
theorem complete_withVariable (filled : directory ≠ "") (free : given.store = none)
    (environment : Environment) :
    complete (environment.withVariable storeVariable (some directory)) none command given operand =
      (build environment command given operand).map fun built => ⟨some directory, built⟩ := by
  have same : environment.withVariable storeVariable (some directory) storeVariable =
      some directory := environment.withVariable_same _ _
  rw [complete, free, build_withVariable_store,
    orVariable_of_ne_empty (by simpa [same] using filled), same]
  cases build environment command given operand with
  | error stop => rfl
  | ok built => rfl

theorem complete_of_store_before (noEmpty : environment storeVariable ≠ some "")
    (free : given.store = none) :
    complete environment (some directory) command given operand =
      (build environment command given operand).map fun built => ⟨some directory, built⟩ := by
  rw [complete, free, orVariable_of_ne_empty noEmpty]
  cases build environment command given operand with
  | error stop => rfl
  | ok built => rfl

theorem complete_of_store_behind (noEmpty : environment storeVariable ≠ some "") :
    complete environment none command (given.withValue .store (some directory)) operand =
      (build environment command given operand).map fun built => ⟨some directory, built⟩ := by
  rw [complete, build_withValue_store, orVariable_of_ne_empty noEmpty]
  cases build environment command given operand with
  | error stop => rfl
  | ok built => rfl

/-- A command line with the option for the store is read like the line without it where the variable
for the store has that value. -/
theorem read_insert_store (accepted : ∃ environment invocation,
      read environment (front ++ back) = .ok invocation)
    (lacks : LacksOption .store (front ++ back)) (place : IsOptionPlace front)
    (written : Choice.Writes (.setting .store directory) words) (filled : directory ≠ "")
    (noEmpty : environment storeVariable ≠ some "") :
    read environment (front ++ words ++ back) =
      read (environment.withVariable storeVariable (some directory)) (front ++ back) := by
  obtain ⟨other, invocation, accepted⟩ := accepted
  obtain ⟨outer, command, inner, operand, line, _⟩ := exists_line_of_read accepted
  obtain ⟨freeBefore, free⟩ := line.value_eq_none lacks
  have outerFree : outer.store = none := freeBefore
  rw [line.read_eq, outerFree, complete_withVariable filled free]
  -- Before the command and behind it, the option hides the variable for the store.
  rcases line.insert Setting.noConfusion place written filled rfl rfl freeBefore free with
    before | behind
  · rw [before.read_eq]
    exact complete_of_store_before noEmpty free
  · rw [behind.read_eq, outerFree]
    exact complete_of_store_behind noEmpty

theorem store_of_read_withVariable (filled : directory ≠ "")
    (lacks : LacksOption .store texts) {invocation : Invocation}
    (accepted : read environment texts = .ok invocation) :
    read (environment.withVariable storeVariable (some directory)) texts =
      .ok ⟨some directory, invocation.command⟩ := by
  obtain ⟨outer, command, inner, operand, line, made⟩ := exists_line_of_read accepted
  obtain ⟨freeBefore, free⟩ := line.value_eq_none lacks
  have outerFree : outer.store = none := freeBefore
  rw [line.read_eq, outerFree, complete_withVariable filled free]
  obtain ⟨_, _, made⟩ := exists_of_bind_eq_ok made
  obtain ⟨built, isBuilt, made⟩ := exists_of_bind_eq_ok made
  obtain ⟨_, _, made⟩ := exists_of_bind_eq_ok made
  rw [isBuilt, ← Except.ok.inj made]
  rfl

theorem writes_store (noHyphen : directory.toList.head? ≠ some '-')
    (isOption : words = ["--store", directory] ∨ words = ["--store=" ++ directory]) :
    Choice.Writes (.setting .store directory) words := by
  have spelled : Setting.store.option = "--store" := by
    decide +kernel
  rcases isOption with rfl | rfl
  · rw [← spelled]
    exact .detached (Argument.plain_of_head? noHyphen)
  · have attached : "--store=" ++ directory = Setting.store.option ++ "=" ++ directory := by
      rw [spelled]
      rfl
    rw [attached]
    exact .attached

end Store

end Arguments

section Runs

variable {front back words : List String} {directory : String}

theorem Surroundings.withStore_withStore (surroundings : Surroundings)
    (value other : Option String) :
    (surroundings.withStore value).withStore other = surroundings.withStore other := by
  simp only [withStore, Surroundings.mk.injEq, and_self, and_true]
  funext name
  by_cases same : name = Arguments.storeVariable
  · rw [same, Environment.withVariable_same, Environment.withVariable_same]
  · rw [Environment.withVariable_other _ same, Environment.withVariable_other _ same,
      Environment.withVariable_other _ same]

theorem run_insert_store (surroundings : Surroundings) (accepted : ∃ environment invocation,
      Arguments.read environment (front ++ back) = .ok invocation)
    (lacksOption : Arguments.LacksOption .store (front ++ back))
    (place : Arguments.IsOptionPlace front)
    (written : Arguments.Choice.Writes (.setting .store directory) words) (filled : directory ≠ "")
    (lacks : surroundings.LacksEnvironmentFile)
    (noEmpty : surroundings.environment Arguments.storeVariable ≠ some "") :
    run (front ++ words ++ back) surroundings =
      run (front ++ back) (surroundings.withStore (some directory)) := by
  have same := Arguments.read_insert_store accepted lacksOption place written filled noEmpty
  have lacksToo : (surroundings.withStore (some directory)).LacksEnvironmentFile := lacks
  cases read : Arguments.read (surroundings.withStore (some directory)).environment
      (front ++ back) with
  | error stop =>
      rw [run_of_stopped lacks (same.trans read), run_of_stopped lacksToo read]
  | ok invocation =>
      rw [run_of_accepted lacks (same.trans read), run_of_accepted lacksToo read,
        Invocation.run_withStore]

end Runs

/-- Wherever the option for the store is put into a command line without it, and however it is
spelled, the run is that of the line without it where the variable for the store has its value. So
it does not matter what value the variable has, and an import is the same with the option. -/
theorem store_option_acts_like_variable
    {texts front option back : List String} {directory : String} {surroundings : Surroundings}
    (accepted : ∃ environment invocation, Arguments.read environment texts = .ok invocation)
    (lacksOption : Arguments.LacksOption .store texts)
    (split : texts = front ++ back) (place : Arguments.IsOptionPlace front)
    (isOption : option = ["--store", directory] ∨ option = ["--store=" ++ directory])
    (filled : directory ≠ "") (noHyphen : directory.toList.head? ≠ some '-')
    (lacks : surroundings.LacksEnvironmentFile)
    (noEmpty : surroundings.environment Arguments.storeVariable ≠ some "") :
    run (front ++ option ++ back) surroundings =
        run texts (surroundings.withStore (some directory)) ∧
      (∀ value, value ≠ some "" →
        run (front ++ option ++ back) (surroundings.withStore value) =
          run (front ++ option ++ back) surroundings) ∧
      ∀ store importer path,
        Arguments.read surroundings.environment texts = .ok ⟨store, .importKey importer path⟩ →
        run (front ++ option ++ back) surroundings = run texts surroundings := by
  subst split
  have written := Arguments.writes_store noHyphen isOption
  have inserted :=
    run_insert_store surroundings accepted lacksOption place written filled lacks noEmpty
  refine ⟨inserted, ?_, ?_⟩
  · intro value notEmpty
    have set : (surroundings.withStore value).environment Arguments.storeVariable = value :=
      surroundings.environment.withVariable_same Arguments.storeVariable value
    have other : (surroundings.withStore value).environment Arguments.storeVariable ≠ some "" := by
      rw [set]
      exact notEmpty
    rw [inserted, run_insert_store (surroundings.withStore value) accepted lacksOption place written
      filled lacks other, Surroundings.withStore_withStore]
  · intro store importer path imports
    have read := Arguments.store_of_read_withVariable filled lacksOption imports
    have lacksToo : (surroundings.withStore (some directory)).LacksEnvironmentFile := lacks
    rw [inserted, run_of_accepted lacks imports, run_of_accepted lacksToo read,
      Invocation.run_withStore]
    exact Invocation.run_congr rfl rfl

theorem store_option_of_two_lines :
    let files : FileAccess := .single "store/1" (Utf8.encode "contents")
    let environment : Environment := fun name =>
      if name = Arguments.storeVariable then some "other" else none
    let surroundings : Surroundings := ⟨environment, files, []⟩
    let texts := ["key", "1"]
    let importing := ["import-cert", "key.pem", "--purpose", "crypt"]
    run ["key", "--store", "store", "1"] surroundings =
        run texts (surroundings.withStore (some "store")) ∧
      run ["--store=store", "key", "1"] (surroundings.withStore none) =
        run ["--store=store", "key", "1"] surroundings ∧
      (run texts (surroundings.withStore (some "store"))).output = "contents\n" ∧
      run ["import-cert", "key.pem", "--store=store", "--purpose", "crypt"] surroundings =
        run importing surroundings := by
  intro files environment surroundings texts importing
  have lacks : surroundings.LacksEnvironmentFile := ⟨.missing, rfl⟩
  have noEmpty : environment Arguments.storeVariable ≠ some "" := by
    decide
  have accepted : Arguments.read environment texts = .ok ⟨some "other", .key 1 false none⟩ := by
    decide +kernel
  have lacksOption : Arguments.LacksOption .store texts :=
    Arguments.lacksOption_of_forall (by decide +kernel)
  have imports : Arguments.read environment importing =
      .ok ⟨some "other", .importKey .certificateToCrypt "key.pem"⟩ := by
    decide +kernel
  have importLacksOption : Arguments.LacksOption .store importing :=
    Arguments.lacksOption_of_forall (by decide +kernel)
  have behindKey : Arguments.IsOptionPlace ["key"] :=
    Arguments.isOptionPlace_of_plain (by decide)
  have behindPath : Arguments.IsOptionPlace ["import-cert", "key.pem"] :=
    Arguments.isOptionPlace_of_plain (by decide)
  have filled : "store" ≠ "" := by
    decide
  have noHyphen : "store".toList.head? ≠ some '-' := by
    decide
  have attached : ["--store=store"] = ["--store", "store"] ∨
      ["--store=store"] = ["--store=" ++ "store"] := .inr rfl
  refine ⟨?_, ?_, ?_, ?_⟩
  · exact (store_option_acts_like_variable ⟨_, _, accepted⟩ lacksOption
      (rfl : texts = ["key"] ++ ["1"]) behindKey (.inl rfl) filled noHyphen lacks noEmpty).1
  · exact (store_option_acts_like_variable ⟨_, _, accepted⟩ lacksOption
      (rfl : texts = [] ++ ["key", "1"]) .start attached filled noHyphen lacks noEmpty).2.1 none
      nofun
  · decide +kernel
  · exact (store_option_acts_like_variable ⟨_, _, imports⟩ importLacksOption
      (rfl : importing = ["import-cert", "key.pem"] ++ ["--purpose", "crypt"]) behindPath attached
      filled noHyphen lacks noEmpty).2.2 _ _ _ imports

end KeyStore
