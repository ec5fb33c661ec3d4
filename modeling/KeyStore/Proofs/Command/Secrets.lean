import KeyStore.Proofs.Command.CommandLines
import KeyStore.Proofs.Command.Dependence
import KeyStore.Proofs.Command.LogLines
import KeyStore.Proofs.Import.PrivateKey
import KeyStore.Proofs.Reader.Protected

/-!
# What the log keeps secret

The log of a command does not depend on the password of a store, nor on the key that is imported
from a block. Two runs that differ in these alone leave the same entries, even if only one of them
succeeds.
-/

namespace KeyStore

open Log

namespace Reader

/-- What a reader reports about a protected version is the same under every password, and the only
outcome that may be different is the text that is decrypted. -/
theorem key_of_any_password (files : FileAccess) (inner : Reader) (version : UInt32) :
    (∃ traced, ∀ password, (passwordProtected inner password).key files version = traced) ∨
      ∃ events, ∀ password, ∃ plaintext,
        (passwordProtected inner password).key files version =
          ⟨events, decryptedText plaintext⟩ := by
  rcases key_cases files inner version with ⟨fault, _, same⟩ | ⟨stored, _, same⟩
  · exact .inl ⟨_, same⟩
  · rcases openProtected_cases version stored with
      ⟨fault, _, opened⟩ | ⟨envelope, fault, _, _, opened⟩ | ⟨envelope, _, _, _, _, _, opened⟩
    · refine .inl ⟨⟨(inner.key files version).events ++ [], .error (.json fault)⟩, ?_⟩
      intro password
      rw [same, opened]
    · refine .inl ⟨⟨(inner.key files version).events ++ .openingKey version envelope.iterationCount
        :: rejection version fault, .error fault⟩, ?_⟩
      intro password
      rw [same, opened]
    · refine .inr ⟨(inner.key files version).events ++
        [.openingKey version envelope.iterationCount], ?_⟩
      intro password
      obtain ⟨plaintext, _, _, equality⟩ := opened password
      refine ⟨plaintext, ?_⟩
      rw [same, equality]

end Reader

namespace Invocation

variable {surroundings : Surroundings}

/-- A run that ends with a decrypted text, or without one, reports nothing like an entry. -/
theorem run_of_decryptedText {path : String} {version : UInt32} {file : Option String}
    {reader : Reader} {events : List Event} {plaintext : Bytes}
    (opens : Opens surroundings path true file reader)
    (read : reader.key surroundings.files version = ⟨events, decryptedText plaintext⟩) :
    let outcome := run ⟨some path, .key version true file⟩ surroundings
    outcome.events =
        events.filter (Filter.ofSetting (surroundings.environment logVariable)).admits ∧
      outcome.reportLines.filterMap Outcome.behindStamp? = [] := by
  have action := action_of_opens opens version
  rw [read] at action
  rcases Reader.decryptedText_cases plaintext with notText | ⟨text, isText, _⟩
  · rw [notText] at action
    constructor
    · rw [events_run, action]
      rfl
    · simp only [run, action]
      exact stamps_report_of_notText version
  · rw [isText] at action
    constructor
    · rw [events_run, action]
      show ((events ++ []).filter _) = _
      rw [List.append_nil]
    · simp only [run, action]
      rfl

theorem log_eq_of_opens {left right : Surroundings} {store : String} {version : UInt32}
    {file : Option String} {leftPassword rightPassword : Bytes}
    (leftOpens : Opens left store true file
      (.passwordProtected (.directory (.ofPath store)) leftPassword))
    (rightOpens : Opens right store true file
      (.passwordProtected (.directory (.ofPath store)) rightPassword))
    (sameEntry : left.files ((StoreLocation.ofPath store).versionPath version) =
      right.files ((StoreLocation.ofPath store).versionPath version))
    (sameSetting : left.environment logVariable = right.environment logVariable) :
    let invocation : Invocation := ⟨some store, .key version true file⟩
    (invocation.run left).events = (invocation.run right).events ∧
      (invocation.run left).log = (invocation.run right).log := by
  intro invocation
  have sameFile := key_congr_of_keyReader (keyReader_of_opens rightOpens) sameEntry
  rcases Reader.key_of_any_password left.files (.directory (.ofPath store)) version with
    ⟨traced, same⟩ | ⟨events, plaintexts⟩
  · have sameRun : invocation.run left = invocation.run right := by
      apply run_congr
      · rw [action_of_opens leftOpens, action_of_opens rightOpens, ← sameFile, same, same]
      · exact sameSetting
    rw [sameRun]
    exact ⟨rfl, rfl⟩
  · obtain ⟨_, leftRead⟩ := plaintexts leftPassword
    obtain ⟨_, rightRead⟩ := plaintexts rightPassword
    rw [sameFile] at rightRead
    obtain ⟨leftEvents, leftStamps⟩ := run_of_decryptedText leftOpens leftRead
    obtain ⟨rightEvents, rightStamps⟩ := run_of_decryptedText rightOpens rightRead
    have sameEvents : (invocation.run left).events = (invocation.run right).events := by
      rw [leftEvents, rightEvents, sameSetting]
    exact ⟨sameEvents, Outcome.log_congr sameEvents (leftStamps.trans rightStamps.symm)⟩

theorem events_action_importKey {store : Option String} {importer : Importer} {path : String}
    {reader : Reader} (imported : (importer.run surroundings.files path).outcome = .ok reader) :
    (action ⟨store, .importKey importer path⟩ surroundings).traced.events =
      (importer.run surroundings.files path).events := by
  obtain ⟨metadata, key, rfl⟩ := Importer.exists_imported_of_run imported
  have called : (Action.call (.importing path)
      (importer.run surroundings.files path)).traced.outcome = .ok (.imported metadata key) := by
    exact (Action.Ends.call_ok imported).outcome
  show ((Action.call _ (importer.run surroundings.files path)).traced >>=
    fun reader => (printStore surroundings.files reader).traced).events = _
  rw [Traced.bind_of_ok called]
  exact List.append_nil _

theorem imported_of_success {store : Option String} {importer : Importer} {path : String}
    (success : (run ⟨store, .importKey importer path⟩ surroundings).code = .success) :
    ∃ reader, (importer.run surroundings.files path).outcome = .ok reader := by
  cases imported : (importer.run surroundings.files path).outcome with
  | ok reader => exact ⟨reader, rfl⟩
  | error fault =>
      obtain ⟨_, _, _, ends⟩ := action_of_fails
        (Fails.importKey imported : Fails surroundings ⟨store, .importKey importer path⟩ _ _)
      rw [(run_of_ends_error ends).1] at success
      contradiction

end Invocation

/-- A password that is not empty can be read from the source that is looked at. -/
def Password.IsGiven (surroundings : Surroundings) (file : Option String) : Prop :=
  ∃ password, Resolves surroundings file password ∧ password ≠ ""

/-- Surroundings of a command line without an environment file, which differ at most in what the
sources of the password hold. The file that is read as an entry is not one of them. -/
structure DifferInPassword (arguments : List String) (left right : Surroundings) : Prop where
  leftLacks : left.LacksEnvironmentFile
  rightLacks : right.LacksEnvironmentFile
  sameVariables : ∀ name, name ≠ Password.variableName →
    left.environment name = right.environment name
  sameEntry : ∀ invocation, Arguments.read left.environment arguments = .ok invocation →
    ∀ path ∈ invocation.inputPath?, left.files path = right.files path
  given : ∀ invocation, Arguments.read left.environment arguments = .ok invocation →
    ∀ file, invocation.NeedsPassword file →
      Password.IsGiven left file ∧ Password.IsGiven right file

/-- A command line, without an environment file, that imports a key from a block with a tag. -/
structure Imports (arguments : List String) (surroundings : Surroundings) (importer : Importer)
    (path tag : String) : Prop where
  lacks : surroundings.LacksEnvironmentFile
  accepted : ∃ store,
    Arguments.read surroundings.environment arguments = .ok ⟨store, .importKey importer path⟩
  block : ∃ block, surroundings.files.FirstBlock path block ∧ block.tag = tag
  success : (run arguments surroundings).code = .success

/-- The entries of the log of an import tell the source, the path, the tag and the purpose. -/
theorem Imports.outcome_eq {arguments : List String} {surroundings : Surroundings}
    {importer : Importer} {path tag : String}
    (imports : Imports arguments surroundings importer path tag) :
    (run arguments surroundings).events =
        [Event.readingFile path, .decodedBlock path tag,
          .importedKey importer.source path importer.purpose].filter
          (Filter.ofSetting (surroundings.environment logVariable)).admits ∧
      (run arguments surroundings).report = "" := by
  obtain ⟨store, accepted⟩ := imports.accepted
  obtain ⟨block, first, rfl⟩ := imports.block
  have success := imports.success
  rw [run_of_accepted imports.lacks accepted] at success ⊢
  obtain ⟨reader, imported⟩ := Invocation.imported_of_success success
  constructor
  · rw [Invocation.events_run, Invocation.events_action_importKey imported,
      Importer.events_run_of_ok first imported]
  · obtain ⟨metadata, key, rfl⟩ := Importer.exists_imported_of_run imported
    exact (Invocation.run_of_ends_ok
      (Invocation.action_of_yields (.importKey imported rfl rfl))).2.2

namespace DifferInPassword

variable {arguments : List String} {left right : Surroundings}

theorem sameSetting (differ : DifferInPassword arguments left right) :
    left.environment logVariable = right.environment logVariable := by
  apply differ.sameVariables
  decide

theorem read_eq (differ : DifferInPassword arguments left right) :
    Arguments.read left.environment arguments = Arguments.read right.environment arguments := by
  apply Arguments.read_congr
  · exact differ.sameVariables _ (by decide)
  · exact differ.sameVariables _ (by decide)

theorem log_eq (differ : DifferInPassword arguments left right) :
    (run arguments left).events = (run arguments right).events ∧
      (run arguments left).log = (run arguments right).log := by
  cases accepted : Arguments.read left.environment arguments with
  | error stop =>
      rw [run_of_stopped differ.leftLacks accepted,
        run_of_stopped differ.rightLacks (differ.read_eq.symm.trans accepted)]
      exact ⟨rfl, rfl⟩
  | ok invocation =>
      rw [run_of_accepted differ.leftLacks accepted,
        run_of_accepted differ.rightLacks (differ.read_eq.symm.trans accepted)]
      have sameEntry := differ.sameEntry invocation accepted
      -- Where no password is asked for, the runs agree altogether and not only in their logs.
      by_cases needs : ∃ file, invocation.NeedsPassword file
      · obtain ⟨file, needsPassword⟩ := needs
        obtain ⟨⟨_, leftResolves, leftFilled⟩, _, rightResolves, rightFilled⟩ :=
          differ.given invocation accepted file needsPassword
        cases needsPassword
        apply Invocation.log_eq_of_opens
        · exact .withPassword leftResolves leftFilled
        · exact .withPassword rightResolves rightFilled
        · exact sameEntry _ rfl
        · exact differ.sameSetting
      · have sameRun : invocation.run left = invocation.run right := by
          apply Invocation.run_congr
          · apply Invocation.action_congr sameEntry
            intro file needsPassword
            exact absurd ⟨file, needsPassword⟩ needs
          · exact differ.sameSetting
        rw [sameRun]
        exact ⟨rfl, rfl⟩

end DifferInPassword

/-- No secret reaches the log. Runs that differ in the password of a store leave the same events and
the same log, and so do imports for one purpose from blocks of one tag, whatever keys they hold. -/
theorem no_secret_reaches_log :
    (∀ (arguments : List String) (left right : Surroundings),
      DifferInPassword arguments left right →
        (run arguments left).events = (run arguments right).events ∧
        (run arguments left).log = (run arguments right).log) ∧
    ∀ (importer : Importer) (path tag : String) (leftArguments rightArguments : List String)
      (left right : Surroundings),
      Imports leftArguments left importer path tag →
      Imports rightArguments right importer path tag →
      left.environment logVariable = right.environment logVariable →
        (run leftArguments left).events = (run rightArguments right).events ∧
        (run leftArguments left).log = (run rightArguments right).log := by
  constructor
  · intro arguments left right differ
    exact differ.log_eq
  · intro importer path tag leftArguments rightArguments left right leftImports rightImports
      sameSetting
    obtain ⟨leftEvents, leftReport⟩ := leftImports.outcome_eq
    obtain ⟨rightEvents, rightReport⟩ := rightImports.outcome_eq
    have sameEvents : (run leftArguments left).events = (run rightArguments right).events := by
      rw [leftEvents, rightEvents, sameSetting]
    refine ⟨sameEvents, Outcome.log_congr sameEvents ?_⟩
    rw [Outcome.reportLines, Outcome.reportLines, leftReport, rightReport]

def keyOfThreeAndEleven : Rsa.PrivateKey where
  publicKey := ⟨33, 3, by decide⟩
  exponent := 7
  p := 3
  q := 11
  isPrivatePart := by decide

theorem log_of_two_passwords_and_two_keys :
    let environment (password : String) : Environment := fun name =>
      if name = Password.variableName then some password
      else if name = logVariable then some "debug" else none
    let keyArguments := ["--store", "store", "key", "1", "--pbe"]
    let block := List.replicate 16 (0 : UInt8)
    let envelope := Envelope.ofParts 1000 [1, 2, 3] block block
    let stored (password : String) : Surroundings :=
      ⟨environment password, .single "store/1" (Utf8.encode (Recorded.serialize envelope)), []⟩
    let importArguments := ["import-private", "key.pem", "--purpose", "sign"]
    let layout := Pem.Layout.alone ['K', 'E', 'Y'] (by decide) (by decide)
    let holding (key : Rsa.PrivateKey) : Surroundings :=
      ⟨environment "", .single "key.pem" (Utf8.encode (layout.text (key.form 1 1 2).encode)), []⟩
    (DifferInPassword keyArguments (stored "left") (stored "right") ∧
      (run keyArguments (stored "left")).log = (run keyArguments (stored "right")).log) ∧
    (Imports importArguments (holding Importer.keyOfThreeAndFive) .privateKeyToSign "key.pem"
        "KEY" ∧
      Imports importArguments (holding keyOfThreeAndEleven) .privateKeyToSign "key.pem" "KEY" ∧
      (run importArguments (holding Importer.keyOfThreeAndFive)).log =
        (run importArguments (holding keyOfThreeAndEleven)).log) := by
  intro environment keyArguments block envelope stored importArguments layout holding
  obtain ⟨ofPasswords, ofKeys⟩ := no_secret_reaches_log
  have differ : DifferInPassword keyArguments (stored "left") (stored "right") := by
    have accepted : Arguments.read (stored "left").environment keyArguments =
        .ok ⟨some "store", .key 1 true none⟩ := by
      decide +kernel
    refine ⟨⟨.missing, rfl⟩, ⟨.missing, rfl⟩, ?_, ?_, ?_⟩
    · intro name other
      show (if _ then _ else _) = (if _ then _ else _)
      rw [if_neg other, if_neg other]
    · intro invocation read path member
      rfl
    · intro invocation read file needs
      obtain rfl := Except.ok.inj (accepted.symm.trans read)
      cases needs
      exact ⟨⟨"left", .ofVariable rfl (by decide), by decide⟩,
        ⟨"right", .ofVariable rfl (by decide), by decide⟩⟩
  have imports (key : Rsa.PrivateKey)
      (short : (key.form 1 1 2).encode.length < Der.lengthLimit) :
      Imports importArguments (holding key) .privateKeyToSign "key.pem" "KEY" := by
    have accepted : Arguments.read (environment "") importArguments =
        .ok ⟨none, .importKey .privateKeyToSign "key.pem"⟩ := by
      decide +kernel
    have file := FileAccess.single_same "key.pem"
      (Utf8.encode (layout.text (key.form 1 1 2).encode))
    have imported : (Importer.privateKeyToSign.run (holding key).files "key.pem").outcome = _ :=
      Importer.outcome_run_of_privateForm rfl ⟨layout, file⟩
    rw [if_pos ⟨by decide, by decide, by decide, short⟩] at imported
    refine ⟨⟨.missing, rfl⟩, ⟨none, accepted⟩, ?_, ?_⟩
    · exact ⟨_, FileAccess.firstBlock_of_layout layout file, rfl⟩
    · rw [run_of_accepted ⟨.missing, rfl⟩ accepted]
      exact (Invocation.run_of_ends_ok
        (Invocation.action_of_yields (.importKey imported rfl rfl))).1
  have first := imports Importer.keyOfThreeAndFive (by decide +kernel)
  have second := imports keyOfThreeAndEleven (by decide +kernel)
  refine ⟨⟨differ, (ofPasswords _ _ _ differ).2⟩, first, second, ?_⟩
  exact (ofKeys _ _ _ _ _ _ _ first second rfl).2

end KeyStore
