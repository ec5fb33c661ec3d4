import KeyStore.Proofs.Command.CommandLines
import KeyStore.Proofs.Command.Dependence
import KeyStore.Proofs.Command.LogLines
import KeyStore.Proofs.Reader.Protected

/-!
# What the log setting changes

The setting of the log decides which events are written and nothing else. An event shows at most one
text from outside as it is, a path or a name that is refused. Only where that text holds a line feed
do further lines of the event stand beside the report.
-/

namespace KeyStore

open Log

theorem events_readEntry (files : FileAccess) (path : String) :
    (readEntry files path).events = [.readingFile path] := by
  rw [readEntry, Traced.bind_of_ok (Traced.outcome_emit _)]
  cases files.readText path with
  | error fault => rfl
  | ok text => rfl

section Files

variable {files : FileAccess} {path : String} {event : Event}

theorem shown_of_mem_readEntry (member : event ∈ (readEntry files path).events) :
    event.shown = path := by
  rw [events_readEntry] at member
  rw [List.mem_singleton.mp member]
  rfl

theorem shown_of_mem_readBlock (member : event ∈ (readBlock files path).events) :
    event.shown = path := by
  rw [readBlock, Traced.mem_events_bind] at member
  rcases member with reading | ⟨text, _, decoding⟩
  · exact shown_of_mem_readEntry reading
  · cases parsed : Pem.parse text with
    | error fault =>
        rw [parsed] at decoding
        exact absurd decoding List.not_mem_nil
    | ok block =>
        rw [parsed] at decoding
        rw [List.mem_singleton.mp decoding]
        rfl

theorem Importer.shown_of_mem_run {importer : Importer}
    (member : event ∈ (importer.run files path).events) : event.shown = path := by
  rw [run, Traced.mem_events_bind, events_loadStore] at member
  rcases member with loading | ⟨reader, _, reporting⟩
  · exact shown_of_mem_readBlock loading
  · rw [List.mem_singleton.mp reporting]
    rfl

end Files

/-- The name that is refused: of two unknown names that of the cipher. -/
def Envelope.refusedName (envelope : Envelope) : String :=
  if envelope.cipher ≠ "AES128" then envelope.cipher else envelope.hmac

theorem Envelope.shown_rejected (version : UInt32) (envelope : Envelope) :
    (Event.rejectedEnvelope version (algorithmFault envelope.cipher envelope.hmac)).shown =
      envelope.refusedName := by
  unfold algorithmFault refusedName
  split
  · rfl
  · rfl

namespace Invocation

/-- A text from outside that the events of an invocation show as it is. -/
inductive Shows (surroundings : Surroundings) : Invocation → (text : String) → Prop
  | path {invocation : Invocation} {path : String} (read : path ∈ invocation.inputPath?) :
      Shows surroundings invocation path
  | refusedName {store : String} {version : UInt32} {file : Option String} {envelope : Envelope}
      (holds : Reader.HoldsUnsupported
        (readEntry surroundings.files ((StoreLocation.ofPath store).versionPath version)).outcome
        envelope) :
      Shows surroundings ⟨some store, .key version true file⟩ envelope.refusedName

section Events

variable {surroundings : Surroundings} {event : Event} {store : Option String} {path : String}

theorem shown_of_mem_importKey {importer : Importer}
    (member : event ∈
      (action ⟨store, .importKey importer path⟩ surroundings).traced.events) :
    event.shown = path := by
  rcases Action.mem_events_bind.mp member with importing | ⟨reader, ended, printing⟩
  · exact Importer.shown_of_mem_run importing
  · obtain ⟨metadata, key, rfl⟩ :=
      Importer.exists_imported_of_run (Action.outcome_of_call ended)
    exact absurd printing List.not_mem_nil

theorem shown_of_mem_entry {reword : StoreFault → Failure}
    (member : event ∈ (Action.call reword (readEntry surroundings.files path) >>=
      Action.print).traced.events) :
    event.shown = path := by
  rcases Action.mem_events_bind.mp member with reading | ⟨_, _, printing⟩
  · exact shown_of_mem_readEntry reading
  · exact absurd printing List.not_mem_nil

theorem shown_of_mem_metadata
    (member : event ∈ (action ⟨some path, .metadata⟩ surroundings).traced.events) :
    event.shown = (StoreLocation.ofPath path).metadataPath := by
  rcases Action.mem_events_bind.mp member with locating | ⟨location, ended, reading⟩
  · exact absurd locating List.not_mem_nil
  · obtain rfl := Except.ok.inj ended
    exact shown_of_mem_entry reading

theorem notMem_events_of_noStore {command : Command} (needsStore : command.NeedsStore) :
    event ∉ (action ⟨none, command⟩ surroundings).traced.events := by
  intro member
  cases command with
  | importKey importer path => exact needsStore.elim
  | metadata =>
      rcases Action.mem_events_bind.mp member with locating | ⟨_, ended, _⟩
      · exact absurd locating List.not_mem_nil
      · contradiction
  | key version isProtected file =>
      rcases Action.mem_events_bind.mp member with locating | ⟨_, ended, _⟩
      · exact absurd locating List.not_mem_nil
      · contradiction

theorem shown_of_mem_protected {version : UInt32} {file : Option String} {password : Bytes}
    (member : event ∈ ((Reader.passwordProtected (.directory (.ofPath path)) password).key
      surroundings.files version).events) :
    event.shown = "" ∨ Shows surroundings ⟨some path, .key version true file⟩ event.shown := by
  rcases Traced.mem_events_bind.mp member with reading | ⟨text, read, opening⟩
  · rw [shown_of_mem_readEntry reading]
    exact .inr (.path rfl)
  · rcases mem_events_openProtected opening with
      ⟨iterations, rfl⟩ | ⟨envelope, parsed, unsupported, rfl⟩
    · exact .inl rfl
    · rw [Envelope.shown_rejected]
      exact .inr (.refusedName ⟨text, read, parsed, unsupported⟩)

theorem shown_of_mem_key {version : UInt32} {isProtected : Bool} {file : Option String}
    (member : event ∈
      (action ⟨some path, .key version isProtected file⟩ surroundings).traced.events) :
    event.shown = "" ∨
      Shows surroundings ⟨some path, .key version isProtected file⟩ event.shown := by
  rcases Action.mem_events_bind.mp member with locating | ⟨location, located, opening⟩
  · exact absurd locating List.not_mem_nil
  · obtain rfl := Except.ok.inj located
    rcases Action.mem_events_bind.mp opening with finding | ⟨reader, opened, reading⟩
    · exact absurd finding List.not_mem_nil
    · cases isProtected with
      | false =>
          obtain rfl := Except.ok.inj opened
          rw [shown_of_mem_entry reading]
          exact .inr (.path rfl)
      | true =>
          obtain ⟨password, rfl⟩ := exists_password_of_keyReader opened
          rcases Action.mem_events_bind.mp reading with entry | ⟨_, _, printing⟩
          · exact shown_of_mem_protected entry
          · exact absurd printing List.not_mem_nil

/-- Besides numbers and wordings of the program, events show paths and refused names. -/
theorem shown_of_mem_action {invocation : Invocation}
    (member : event ∈ (invocation.action surroundings).traced.events) :
    event.shown = "" ∨ invocation.Shows surroundings event.shown := by
  obtain ⟨store, command⟩ := invocation
  cases command with
  | importKey importer path =>
      rw [shown_of_mem_importKey member]
      exact .inr (.path rfl)
  | metadata =>
      cases store with
      | none => exact absurd member (notMem_events_of_noStore True.intro)
      | some path =>
          rw [shown_of_mem_metadata member]
          exact .inr (.path rfl)
  | key version isProtected file =>
      cases store with
      | none => exact absurd member (notMem_events_of_noStore True.intro)
      | some path => exact shown_of_mem_key member

end Events

end Invocation

/-! ## Log settings -/

def Surroundings.withLogSetting (surroundings : Surroundings) (setting : Option String) :
    Surroundings :=
  { surroundings with
    environment := fun name =>
      if name = logVariable then setting else surroundings.environment name }

section Settings

variable {surroundings : Surroundings} (setting : Option String)

theorem Surroundings.environment_withLogSetting_other {name : String} (other : name ≠ logVariable) :
    (surroundings.withLogSetting setting).environment name = surroundings.environment name := by
  simp only [withLogSetting, if_neg other]

theorem Invocation.action_withLogSetting (invocation : Invocation) :
    invocation.action (surroundings.withLogSetting setting) = invocation.action surroundings := by
  apply action_congr
  · intro path read
    rfl
  · intro file needs
    apply Password.find_congr
    · exact Surroundings.environment_withLogSetting_other setting (by decide)
    · intro path given
      rfl
    · rfl

theorem read_withLogSetting (arguments : List String) :
    Arguments.read (surroundings.withLogSetting setting).environment arguments =
      Arguments.read surroundings.environment arguments := by
  apply Arguments.read_congr
  · exact Surroundings.environment_withLogSetting_other setting (by decide)
  · exact Surroundings.environment_withLogSetting_other setting (by decide)

end Settings

/-- What two runs leave beside the log is the same. -/
structure Outcome.SameAnswer (left right : Outcome) : Prop where
  code : left.code = right.code
  output : left.output = right.output
  report : left.report = right.report

theorem Invocation.sameAnswer_of_action {invocation : Invocation} {left right : Surroundings}
    (same : invocation.action left = invocation.action right) :
    (invocation.run left).SameAnswer (invocation.run right) := by
  simp only [run, same]
  split
  · exact ⟨rfl, rfl, rfl⟩
  · exact ⟨rfl, rfl, rfl⟩

section Settings

variable {arguments : List String} {surroundings : Surroundings}

/-- Runs with different log settings are stopped in the same way, or start the same command. -/
theorem run_withLogSetting (lacks : surroundings.LacksEnvironmentFile) :
    (∃ stop, Arguments.read surroundings.environment arguments = .error stop ∧
      ∀ setting, run arguments (surroundings.withLogSetting setting) = stop.outcome) ∨
    ∃ invocation, Arguments.read surroundings.environment arguments = .ok invocation ∧
      ∀ setting, run arguments (surroundings.withLogSetting setting) =
        invocation.run (surroundings.withLogSetting setting) := by
  have stillLacks (setting : Option String) :
      (surroundings.withLogSetting setting).LacksEnvironmentFile := lacks
  cases accepted : Arguments.read surroundings.environment arguments with
  | error stop =>
      refine .inl ⟨stop, rfl, fun setting => ?_⟩
      apply run_of_stopped (stillLacks setting)
      rw [read_withLogSetting, accepted]
  | ok invocation =>
      refine .inr ⟨invocation, rfl, fun setting => ?_⟩
      apply run_of_accepted (stillLacks setting)
      rw [read_withLogSetting, accepted]

theorem sameAnswer_withLogSetting (lacks : surroundings.LacksEnvironmentFile)
    (left right : Option String) :
    (run arguments (surroundings.withLogSetting left)).SameAnswer
      (run arguments (surroundings.withLogSetting right)) := by
  rcases @run_withLogSetting arguments _ lacks with
    ⟨stop, _, stopped⟩ | ⟨invocation, _, started⟩
  · rw [stopped, stopped]
    exact ⟨rfl, rfl, rfl⟩
  · rw [started, started]
    apply Invocation.sameAnswer_of_action
    rw [Invocation.action_withLogSetting, Invocation.action_withLogSetting]

theorem shown_of_mem_run (lacks : surroundings.LacksEnvironmentFile) {setting : Option String}
    {event : Event}
    (member : event ∈ (run arguments (surroundings.withLogSetting setting)).events) :
    event.shown = "" ∨ ∃ invocation,
      Arguments.read surroundings.environment arguments = .ok invocation ∧
        invocation.Shows surroundings event.shown := by
  rcases @run_withLogSetting arguments _ lacks with
    ⟨stop, _, stopped⟩ | ⟨invocation, accepted, started⟩
  · rw [stopped] at member
    cases stop with
    | _ => exact absurd member List.not_mem_nil
  · rw [started, Invocation.events_run, Invocation.action_withLogSetting] at member
    rcases Invocation.shown_of_mem_action (List.mem_filter.mp member).1 with nothing | shows
    · exact .inl nothing
    · exact .inr ⟨invocation, accepted, shows⟩

end Settings

/-- Whatever the log setting is, a command ends with the same code, output and report. An event
takes one line unless the text that it shows as it is holds a line feed. Where no such text does,
the error text is the same as well. -/
theorem log_setting_leaves_answer {arguments : List String} {surroundings : Surroundings}
    (lacks : surroundings.LacksEnvironmentFile) :
    (∀ left right, (run arguments (surroundings.withLogSetting left)).SameAnswer
      (run arguments (surroundings.withLogSetting right))) ∧
    (∀ setting, ∀ event ∈ (run arguments (surroundings.withLogSetting setting)).events,
      (event.shown = "" ∨ ∃ invocation,
        Arguments.read surroundings.environment arguments = .ok invocation ∧
          invocation.Shows surroundings event.shown) ∧
      ((Outcome.eventLines event).2 = [] ↔ '\n' ∉ event.shown.toList)) ∧
    ((∀ invocation text, Arguments.read surroundings.environment arguments = .ok invocation →
        invocation.Shows surroundings text → '\n' ∉ text.toList) →
      ∀ left right, (run arguments (surroundings.withLogSetting left)).errorText =
        (run arguments (surroundings.withLogSetting right)).errorText) := by
  refine ⟨sameAnswer_withLogSetting lacks, ?_, ?_⟩
  · intro setting event member
    exact ⟨shown_of_mem_run lacks member, Outcome.further_lines_eq_nil_iff⟩
  · intro oneLine left right
    have events (setting : Option String) :
        ∀ event ∈ (run arguments (surroundings.withLogSetting setting)).events,
          '\n' ∉ event.shown.toList := by
      intro event member
      rcases shown_of_mem_run lacks member with nothing | ⟨invocation, accepted, shows⟩
      · rw [nothing]
        exact List.not_mem_nil
      · exact oneLine invocation _ accepted shows
    have sameReport := (@sameAnswer_withLogSetting arguments _ lacks left right).report
    rw [Outcome.errorText_of_oneLine (events left), Outcome.errorText_of_oneLine (events right),
      Outcome.reportLines, Outcome.reportLines, sameReport]

theorem log_setting_leaves_answer_of_metadata :
    let surroundings : Surroundings := ⟨fun _ => none, .single "store/meta" [], []⟩
    let arguments := ["--store", "store", "meta"]
    surroundings.LacksEnvironmentFile ∧
      (run arguments (surroundings.withLogSetting (some "debug"))).errorText =
        (run arguments (surroundings.withLogSetting none)).errorText := by
  intro surroundings arguments
  have lacks : surroundings.LacksEnvironmentFile := ⟨.missing, rfl⟩
  have accepted : Arguments.read surroundings.environment arguments =
      .ok ⟨some "store", .metadata⟩ := by
    decide +kernel
  obtain ⟨_, _, sameErrorText⟩ := @log_setting_leaves_answer arguments _ lacks
  refine ⟨lacks, sameErrorText ?_ _ _⟩
  intro invocation text read shows
  obtain rfl := Except.ok.inj (accepted.symm.trans read)
  cases shows with
  | path isEntry =>
      obtain rfl := Option.some.inj isEntry
      decide +kernel

/-- A line feed in a path reaches the error text, if the log setting lets the event through, and one
in the name of a cipher leads to an event of two lines. -/
theorem error_text_of_events_with_line_feeds :
    let arguments := ["--store", "one\ntwo", "meta"]
    let surroundings : Surroundings := ⟨fun _ => none, .single "one\ntwo/meta" [], []⟩
    let keyArguments := ["--store", "store", "key", "1", "--pbe"]
    let holding : Surroundings :=
      ⟨fun name => if name = Password.variableName then some "word" else none,
        .single "store/1" (Utf8.encode "[\"one\\ntwo\",\"\",1,\"\",\"\",\"\"]"), []⟩
    (run arguments (surroundings.withLogSetting (some "debug"))).errorText = "two/meta\n" ∧
      (run arguments (surroundings.withLogSetting none)).errorText = "" ∧
      (run keyArguments holding).events.flatMap (fun event => (Outcome.eventLines event).2) =
        ["two' in key envelope".toList] := by
  decide +kernel

end KeyStore
