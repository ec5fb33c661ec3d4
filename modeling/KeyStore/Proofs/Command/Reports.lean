import KeyStore.Proofs.Command.Passwords
import KeyStore.Proofs.Import.Loading

/-!
# What commands report

A command is a row of calls. If all of them succeed, it prints what they return, and otherwise it
reports the first one that fails and prints nothing. An import prints the metadata before it asks
for the key; a store around a key always has one, so nothing is left half printed.
-/

namespace KeyStore

def Command.NeedsStore : Command → Prop
  | .metadata | .key _ _ _ => True
  | .importKey _ _ => False

namespace Invocation

section Calls

variable (surroundings : Surroundings)

/-- The reader that a command asks for keys: the directory at a path, under a layer for the password
if its keys are protected. -/
inductive Opens (path : String) : (isProtected : Bool) → (file : Option String) → Reader → Prop
  | plain {file : Option String} : Opens path false file (.directory (.ofPath path))
  | withPassword {file : Option String} {password : String}
      (resolves : Password.Resolves surroundings file password) (filled : password ≠ "") :
      Opens path true file
        (.passwordProtected (.directory (.ofPath path)) (Utf8.encode password))

/-- All calls of an invocation succeed and return the texts. -/
inductive Yields : Invocation → (texts : List String) → Prop
  | metadata {path text : String}
      (read : ((Reader.directory (.ofPath path)).metadata surroundings.files).outcome =
        .ok text) :
      Yields ⟨some path, .metadata⟩ [text]
  | key {path text : String} {version : UInt32} {isProtected : Bool} {file : Option String}
      {reader : Reader} (opens : Opens surroundings path isProtected file reader)
      (read : (reader.key surroundings.files version).outcome = .ok text) :
      Yields ⟨some path, .key version isProtected file⟩ [text]
  | importKey {store : Option String} {importer : Importer} {path metadata text : String}
      {reader : Reader} (imported : (importer.run surroundings.files path).outcome = .ok reader)
      (readMetadata : (reader.metadata surroundings.files).outcome = .ok metadata)
      (readKey : (reader.key surroundings.files 1).outcome = .ok text) :
      Yields ⟨store, .importKey importer path⟩ [metadata, text]

/-- The first call of an invocation that does not succeed is told by a context with causes. -/
inductive Fails : Invocation → (context : String) → (causes : List String) → Prop
  | noStore {command : Command} (needsStore : command.NeedsStore) :
      Fails ⟨none, command⟩ "no key store given; use --store or KZREAD_STORE" []
  | metadata {path : String} {fault : StoreFault}
      (failed : ((Reader.directory (.ofPath path)).metadata surroundings.files).outcome =
        .error fault) :
      Fails ⟨some path, .metadata⟩ fault.message fault.causes
  | unreadablePassword {path context : String} {causes : List String} {version : UInt32}
      {file : Option String} (unreadable : Password.Unreadable surroundings file context causes) :
      Fails ⟨some path, .key version true file⟩ context causes
  | emptyPassword {path : String} {version : UInt32} {file : Option String}
      (resolves : Password.Resolves surroundings file "") :
      Fails ⟨some path, .key version true file⟩ "No password provided" []
  | key {path : String} {version : UInt32} {isProtected : Bool} {file : Option String}
      {reader : Reader} {fault : StoreFault}
      (opens : Opens surroundings path isProtected file reader)
      (failed : (reader.key surroundings.files version).outcome = .error fault) :
      Fails ⟨some path, .key version isProtected file⟩
        ("failed to read key version " ++ toString version) (fault.message :: fault.causes)
  | importKey {store : Option String} {importer : Importer} {path : String} {fault : StoreFault}
      (failed : (importer.run surroundings.files path).outcome = .error fault) :
      Fails ⟨store, .importKey importer path⟩ ("failed to import '" ++ path ++ "'")
        (fault.message :: fault.causes)

end Calls

variable {surroundings : Surroundings} {invocation : Invocation}

theorem keyReader_of_opens {path : String} {isProtected : Bool} {file : Option String}
    {reader : Reader} (opens : Opens surroundings path isProtected file reader) :
    keyReader surroundings (.ofPath path) isProtected file = .ok reader := by
  cases opens with
  | plain => rfl
  | withPassword resolves filled =>
      have found := Password.find_of_resolves resolves
      rw [if_neg filled] at found
      rw [keyReader, if_pos rfl, found]
      rfl

theorem keyReader_of_find_error {failure : Failure} {file : Option String}
    (failed : Password.find surroundings.environment surroundings.files surroundings.input file =
      .error failure) (location : StoreLocation) :
    keyReader surroundings location true file = .error failure := by
  rw [keyReader, if_pos rfl, failed]
  rfl

theorem action_of_yields {texts : List String} (yields : Yields surroundings invocation texts) :
    (invocation.action surroundings).Ends texts (.ok ()) := by
  cases yields with
  | metadata read =>
      exact .bind_ok (.ofTraced rfl) (.bind_ok (.call_ok read) (.print _))
  | key opens read =>
      exact .bind_ok (.ofTraced rfl)
        (.bind_ok (.ofTraced (keyReader_of_opens opens)) (.bind_ok (.call_ok read) (.print _)))
  | importKey imported readMetadata readKey =>
      exact .bind_ok (.call_ok imported) (.bind_ok (.call_ok readMetadata)
        (.bind_ok (.print _) (.bind_ok (.call_ok readKey) (.print _))))

theorem action_of_fails {context : String} {causes : List String}
    (fails : Fails surroundings invocation context causes) :
    ∃ failure : Failure, failure.context = context ∧ failure.causes = causes ∧
      (invocation.action surroundings).Ends [] (.error failure) := by
  cases fails with
  | @noStore command needsStore =>
      refine ⟨.noStore, rfl, rfl, ?_⟩
      cases command with
      | metadata => exact .bind_error (.ofTraced rfl)
      | key version isProtected file => exact .bind_error (.ofTraced rfl)
      | importKey importer path => exact needsStore.elim
  | @metadata path fault failed =>
      refine ⟨.reader fault, rfl, rfl, ?_⟩
      exact .bind_ok (.ofTraced rfl) (.bind_error (.call_error failed))
  | unreadablePassword unreadable =>
      obtain ⟨failure, sameContext, sameCauses, failed⟩ := Password.find_of_unreadable unreadable
      refine ⟨failure, sameContext, sameCauses, ?_⟩
      exact .bind_ok (.ofTraced rfl) (.bind_error (.ofTraced (keyReader_of_find_error failed _)))
  | emptyPassword resolves =>
      have failed := Password.find_of_resolves resolves
      refine ⟨.noPassword, rfl, rfl, ?_⟩
      exact .bind_ok (.ofTraced rfl) (.bind_error (.ofTraced (keyReader_of_find_error failed _)))
  | @key path version isProtected file reader fault opens failed =>
      refine ⟨.key version fault, rfl, rfl, ?_⟩
      exact .bind_ok (.ofTraced rfl)
        (.bind_ok (.ofTraced (keyReader_of_opens opens)) (.bind_error (.call_error failed)))
  | @importKey store importer path fault failed =>
      exact ⟨.importing path fault, rfl, rfl, .bind_error (.call_error failed)⟩

theorem run_of_ends_ok {texts : List String}
    (ends : (invocation.action surroundings).Ends texts (.ok ())) :
    (invocation.run surroundings).code = .success ∧
      (invocation.run surroundings).output = String.join (texts.map (· ++ "\n")) ∧
      (invocation.run surroundings).report = "" := by
  simp only [run, ends.outcome, ends.printed, and_self]

theorem run_of_ends_error {texts : List String} {failure : Failure}
    (ends : (invocation.action surroundings).Ends texts (.error failure)) :
    (invocation.run surroundings).code = .failure ∧
      (invocation.run surroundings).output = String.join (texts.map (· ++ "\n")) ∧
      (invocation.run surroundings).report = failure.report := by
  simp only [run, ends.outcome, ends.printed, and_self]

end Invocation

end KeyStore
