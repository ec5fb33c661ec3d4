import KeyStore.Proofs.Command.Reports

/-!
# What a command depends on

A command reads one store entry or one PEM file, and for a protected key also a password. Two runs
that agree on these and on the log filter are the same, whatever else differs around them.
-/

namespace KeyStore

open Log

section Files

variable {left right : FileAccess} {path : String}

theorem readEntry_congr (same : left path = right path) :
    readEntry left path = readEntry right path := by
  rw [readEntry, readEntry, FileAccess.readText, FileAccess.readText, same]

theorem readBlock_congr (same : left path = right path) :
    readBlock left path = readBlock right path := by
  rw [readBlock, readBlock, readEntry_congr same]

theorem Importer.loadStore_congr (same : left path = right path) (purpose : KeyPurpose)
    (source : KeySource) :
    loadStore left path purpose source = loadStore right path purpose source := by
  have sameBlock := readBlock_congr same
  cases source with
  | privateKey => simp only [loadStore, loadPrivateKey, sameBlock]
  | publicKey => simp only [loadStore, loadPublicKey, sameBlock]
  | certificate => simp only [loadStore, loadCertifiedKey, sameBlock]

theorem Importer.run_congr (same : left path = right path) (importer : Importer) :
    importer.run left path = importer.run right path := by
  rw [run, run, loadStore_congr same]

end Files

/-- The password depends on one variable, and on the file that is given. -/
theorem Password.find_congr {left right : Surroundings} {file : Option String}
    (sameVariable : left.environment variableName = right.environment variableName)
    (sameFile : ∀ path ∈ file, left.files path = right.files path)
    (sameInput : left.input = right.input) :
    find left.environment left.files left.input file =
      find right.environment right.files right.input file := by
  have resolved : resolve left.environment left.files left.input file =
      resolve right.environment right.files right.input file := by
    cases file with
    | some path =>
        rw [resolve, resolve, ofFile, ofFile, FileAccess.readText, FileAccess.readText,
          sameFile path rfl]
    | none => rw [resolve, resolve, ofSurroundings, ofSurroundings, sameVariable, sameInput]
  rw [find, find, resolved]

namespace Action

variable {α β : Type}

/-- What comes behind a value only has to agree at that value. -/
theorem bind_congr {first : Action α} {next other : α → Action β}
    (same : ∀ value, first.traced.outcome = .ok value → next value = other value) :
    first >>= next = first >>= other := by
  show andThen first next = andThen first other
  cases ended : first.traced.outcome with
  | error failure =>
      simp only [andThen, ended, Traced.bind_of_error ended]
  | ok value =>
      simp only [andThen, ended, Traced.bind_of_ok ended, same value ended]

theorem mem_events_bind {first : Action α} {next : α → Action β} {event : Event} :
    event ∈ (first >>= next).traced.events ↔
      event ∈ first.traced.events ∨
        ∃ value, first.traced.outcome = .ok value ∧ event ∈ (next value).traced.events :=
  Traced.mem_events_bind

theorem outcome_of_call {reword : StoreFault → Failure} {traced : Traced StoreFault α} {value : α}
    (ended : (call reword traced).traced.outcome = .ok value) : traced.outcome = .ok value :=
  eq_ok_of_mapError ended

end Action

namespace Invocation

/-- The path of the store entry or of the PEM file that an invocation reads, if there is one. -/
def inputPath? (invocation : Invocation) : Option String :=
  match invocation.command, invocation.store with
  | .importKey _ path, _ => some path
  | .metadata, some store => some (StoreLocation.ofPath store).metadataPath
  | .key version _ _, some store => some ((StoreLocation.ofPath store).versionPath version)
  | _, none => none

/-- The invocation looks for a password: in a file, if one is given. -/
inductive NeedsPassword : Invocation → (file : Option String) → Prop
  | key {store : String} {version : UInt32} {file : Option String} :
      NeedsPassword ⟨some store, .key version true file⟩ file

def Reads (invocation : Invocation) (path : String) : Prop :=
  path ∈ invocation.inputPath? ∨ invocation.NeedsPassword (some path)

section Dependence

variable {left right : Surroundings} {invocation : Invocation}

theorem action_of_opens {surroundings : Surroundings} {path : String} {isProtected : Bool}
    {file : Option String} {reader : Reader}
    (opens : Opens surroundings path isProtected file reader) (version : UInt32) :
    action ⟨some path, .key version isProtected file⟩ surroundings =
      (Action.call (.key version) (reader.key surroundings.files version) >>= Action.print) := by
  have opened := keyReader_of_opens opens
  show (Action.ofOutcome (keyReader surroundings (.ofPath path) isProtected file) >>= _) = _
  rw [opened]
  rfl

theorem exists_password_of_keyReader {surroundings : Surroundings} {location : StoreLocation}
    {file : Option String} {reader : Reader}
    (opened : keyReader surroundings location true file = .ok reader) :
    ∃ password, reader = .passwordProtected (.directory location) (Utf8.encode password) := by
  rw [keyReader, if_pos rfl] at opened
  obtain ⟨password, _, made⟩ := exists_of_bind_eq_ok opened
  exact ⟨password, (Except.ok.inj made).symm⟩

/-- The reader of a version reads the file of that version and no other. -/
theorem key_congr_of_keyReader {surroundings : Surroundings} {location : StoreLocation}
    {isProtected : Bool} {file : Option String} {reader : Reader}
    (opened : keyReader surroundings location isProtected file = .ok reader) {version : UInt32}
    {files others : FileAccess}
    (same : files (location.versionPath version) = others (location.versionPath version)) :
    reader.key files version = reader.key others version := by
  have read := readEntry_congr same
  cases isProtected with
  | false =>
      obtain rfl := Except.ok.inj opened
      exact read
  | true =>
      obtain ⟨password, rfl⟩ := exists_password_of_keyReader opened
      rw [Reader.key, Reader.key, Reader.key, Reader.key, read]

/-- An action depends on one file, and on the password if it needs one. -/
theorem action_congr
    (sameEntry : ∀ path ∈ invocation.inputPath?, left.files path = right.files path)
    (samePassword : ∀ file, invocation.NeedsPassword file →
      Password.find left.environment left.files left.input file =
        Password.find right.environment right.files right.input file) :
    invocation.action left = invocation.action right := by
  obtain ⟨store, command⟩ := invocation
  cases command with
  | importKey importer path =>
      have imported := importer.run_congr (sameEntry path rfl)
      show (Action.call _ (importer.run left.files path) >>= printStore left.files) =
        (Action.call _ (importer.run right.files path) >>= printStore right.files)
      rw [imported]
      -- What has been imported reads no file any more.
      refine Action.bind_congr fun reader ended => ?_
      obtain ⟨metadata, key, rfl⟩ :=
        Importer.exists_imported_of_run (Action.outcome_of_call ended)
      rfl
  | metadata =>
      cases store with
      | none => rfl
      | some path =>
          have read := readEntry_congr (sameEntry _ rfl)
          simp only [action, Reader.metadata]
          exact Action.bind_congr fun location ended => by
            obtain rfl := Except.ok.inj ended
            rw [read]
  | key version isProtected file =>
      cases store with
      | none => rfl
      | some path =>
          have sameReader : keyReader left (.ofPath path) isProtected file =
              keyReader right (.ofPath path) isProtected file := by
            cases isProtected with
            | false => rfl
            | true => rw [keyReader, keyReader, samePassword file .key]
          show (Action.ofOutcome (keyReader left (.ofPath path) isProtected file) >>= _) =
            (Action.ofOutcome (keyReader right (.ofPath path) isProtected file) >>= _)
          rw [sameReader]
          refine Action.bind_congr fun reader opened => ?_
          rw [key_congr_of_keyReader opened (sameEntry _ rfl)]

end Dependence

end Invocation

def Surroundings.LacksEnvironmentFile (surroundings : Surroundings) : Prop :=
  ∃ fault, surroundings.files environmentFile = .error fault

section Runs

variable {surroundings : Surroundings} {arguments : List String}

theorem Surroundings.fullEnvironment_of_lacks (lacks : surroundings.LacksEnvironmentFile) :
    surroundings.fullEnvironment = surroundings.environment := by
  obtain ⟨fault, absent⟩ := lacks
  rw [fullEnvironment, absent]

theorem run_of_accepted (lacks : surroundings.LacksEnvironmentFile) {invocation : Invocation}
    (accepted : Arguments.read surroundings.environment arguments = .ok invocation) :
    run arguments surroundings = invocation.run surroundings := by
  rw [run, surroundings.fullEnvironment_of_lacks lacks, accepted]
  simp only [Surroundings.prepared, surroundings.fullEnvironment_of_lacks lacks]

theorem run_of_stopped (lacks : surroundings.LacksEnvironmentFile) {stop : Stop}
    (stopped : Arguments.read surroundings.environment arguments = .error stop) :
    run arguments surroundings = stop.outcome := by
  rw [run, surroundings.fullEnvironment_of_lacks lacks, stopped]

theorem Invocation.run_congr {left right : Surroundings} {first second : Invocation}
    (sameAction : first.action left = second.action right)
    (sameSetting : left.environment logVariable = right.environment logVariable) :
    first.run left = second.run right := by
  rw [run, run, sameAction, sameSetting]

theorem Invocation.events_run (invocation : Invocation) (surroundings : Surroundings) :
    (invocation.run surroundings).events =
      (invocation.action surroundings).traced.events.filter
        (Filter.ofSetting (surroundings.environment logVariable)).admits := by
  simp only [run]
  split
  · rfl
  · rfl

end Runs

end KeyStore
