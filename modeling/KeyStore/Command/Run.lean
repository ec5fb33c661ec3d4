import KeyStore.Command.Action
import KeyStore.Command.Arguments
import KeyStore.Command.Password
import KeyStore.Environment.DotEnv
import KeyStore.Log.Filter

/-!
# Running commands

A command line is run in given surroundings: variables, files, and an input. An environment file
supplies variables first. The outcome is an exit code, the output, the events that are logged, and
a report if the command fails.
-/

namespace KeyStore

open Log

/-- What a command finds around it. -/
structure Surroundings where
  environment : Environment
  files : FileAccess
  input : Bytes

def Invocation.location (invocation : Invocation) : Except Failure StoreLocation :=
  match invocation.store with
  | some path => .ok (.ofPath path)
  | none => .error .noStore

/-- The reader of a store, whose keys may be protected by a password. -/
def keyReader (surroundings : Surroundings) (location : StoreLocation) (isProtected : Bool)
    (passwordFile : Option String) : Except Failure Reader :=
  if isProtected then do
    let password ← Password.find surroundings.environment surroundings.files surroundings.input
      passwordFile
    return .passwordProtected (.directory location) (Utf8.encode password)
  else
    return .directory location

def printStore (files : FileAccess) (reader : Reader) : Action Unit := do
  let metadata ← Action.call .reader (reader.metadata files)
  Action.print metadata
  let key ← Action.call .reader (reader.key files 1)
  Action.print key

def Invocation.action (invocation : Invocation) (surroundings : Surroundings) : Action Unit :=
  let files := surroundings.files
  match invocation.command with
  | .metadata => do
      let location ← Action.ofOutcome invocation.location
      let metadata ← Action.call .reader ((Reader.directory location).metadata files)
      Action.print metadata
  | .key version isProtected passwordFile => do
      let location ← Action.ofOutcome invocation.location
      let reader ← Action.ofOutcome (keyReader surroundings location isProtected passwordFile)
      let key ← Action.call (.key version) (reader.key files version)
      Action.print key
  | .importKey importer path => do
      let reader ← Action.call (.importing path) (importer.run files path)
      printStore files reader

def Invocation.paths (invocation : Invocation) : List String :=
  let location := StoreLocation.ofPath (invocation.store.getD "")
  match invocation.command with
  | .metadata => [location.metadataPath]
  | .key version _ passwordFile => location.versionPath version :: passwordFile.toList
  | .importKey _ path => [path]

def Invocation.readsInput (invocation : Invocation) (environment : Environment) : Bool :=
  match invocation.command with
  | .key _ true none =>
      invocation.store.isSome && ((environment Password.variableName).getD "").isEmpty
  | _ => false

inductive ExitCode where
  | success
  | failure
  | usage
deriving DecidableEq, Repr

def ExitCode.number : ExitCode → Nat
  | .success => 0
  | .failure => 1
  | .usage => 2

structure Outcome where
  code : ExitCode
  output : String
  events : List Event
  report : String
deriving DecidableEq

namespace Outcome

/-- The form of the time stamp of an entry, where a zero stands for any digit. -/
def stampForm : List Char := "0000-00-00T00:00:00.000000Z".toList

/-- The text behind what has the given form, if a text begins with it. -/
def behindForm? : (form : List Char) → List Char → Option (List Char)
  | [], rest => some rest
  | _ :: _, [] => none
  | sign :: form, char :: rest =>
      if char = sign ∨ (sign = '0' ∧ char.isDigit) then behindForm? form rest else none

def behindStamp? (line : List Char) : Option (List Char) :=
  behindForm? stampForm line

/-- The first line of the text of an event, which is given a time stamp, and its further lines,
which are written as they are. -/
def eventLines (event : Event) : List Char × List (List Char) :=
  cutFields '\n' event.text.toList

def reportLines (outcome : Outcome) : List (List Char) :=
  splitFields '\n' outcome.report.toList

/-- The entries of the log: of each event the first line, and every other line that begins like an
entry. -/
def log (outcome : Outcome) : List String :=
  let entries := outcome.events.flatMap fun event =>
    let (first, further) := eventLines event
    first :: further.filterMap behindStamp?
  (entries ++ outcome.reportLines.filterMap behindStamp?).map fun entry =>
    String.ofList (trimBlanks entry)

/-- What is written beside the log: the further lines of events, and the report. -/
def errorText (outcome : Outcome) : String :=
  let lines := outcome.events.flatMap (fun event => (eventLines event).2) ++ outcome.reportLines
  String.ofList (List.intercalate ['\n'] (lines.filter fun line => (behindStamp? line).isNone))

end Outcome

def environmentFile : String := ".env"

def logVariable : String := "KZREAD_LOG"

def versionText : String := "kzread 0.1.0\n"

def usageText : String :=
  "Usage: kzread [--store DIR] COMMAND\n\n" ++
  "Commands:\n" ++
  "  meta\n" ++
  "  key VERSION [--pbe] [--password-file FILE]\n" ++
  "  import-private PEM --purpose sign|crypt\n" ++
  "  import-public PEM --purpose encrypt|verify\n" ++
  "  import-cert PEM --purpose verify|crypt\n"

def Surroundings.fullEnvironment (surroundings : Surroundings) : Environment :=
  match surroundings.files environmentFile with
  | .ok contents => DotEnv.supplyFile surroundings.environment contents
  | .error _ => surroundings.environment

def Surroundings.prepared (surroundings : Surroundings) : Surroundings :=
  { surroundings with environment := surroundings.fullEnvironment }

/-- The outcome of an invocation, of whose events the filter lets some through. -/
def Invocation.run (invocation : Invocation) (surroundings : Surroundings) : Outcome :=
  let action := invocation.action surroundings
  let filter := Filter.ofSetting (surroundings.environment logVariable)
  let output := String.join (action.printed.map (· ++ "\n"))
  let events := action.traced.events.filter filter.admits
  match action.traced.outcome with
  | .ok () => ⟨.success, output, events, ""⟩
  | .error failure => ⟨.failure, output, events, failure.report⟩

def Stop.outcome : Stop → Outcome
  | .usage => ⟨.usage, "", [], usageText⟩
  | .help => ⟨.success, usageText, [], ""⟩
  | .version => ⟨.success, versionText, [], ""⟩

def run (arguments : List String) (surroundings : Surroundings) : Outcome :=
  match Arguments.read surroundings.fullEnvironment arguments with
  | .ok invocation => invocation.run surroundings.prepared
  | .error stop => stop.outcome

end KeyStore
