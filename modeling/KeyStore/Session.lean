import KeyStore.Files.Tree
import KeyStore.Import.Importer

/-!
# Sessions

A row of steps over one tree of files: files come and go, readers are opened under names, and
metadata and keys are read through them. A reader of imported keys holds the key that it was opened
with; a reader of a directory looks at the files anew for every answer.
-/

namespace KeyStore

/-- How a reader is to be opened. -/
inductive ReaderPlan where
  | directory (path : String)
  | imported (importer : Importer) (path : String)
  | aes (key : AesKey)
  | forwarding (inner : ReaderPlan)
  | decrypting (inner : ReaderPlan) (decrypter : Decrypter)
  | passwordProtected (inner : ReaderPlan) (password : Bytes)

def ReaderPlan.build (files : FileAccess) : ReaderPlan → Except StoreFault Reader
  | .directory path => .ok (.directory (.ofPath path))
  | .imported importer path => (importer.run files path).outcome
  | .aes key => .ok (.ofAesKey key)
  | .forwarding inner => do return .forwarding (← inner.build files)
  | .decrypting inner decrypter => do return .decrypting (← inner.build files) decrypter
  | .passwordProtected inner password => do
      return .passwordProtected (← inner.build files) password

inductive Content where
  | file (contents : Bytes)
  | directory
deriving DecidableEq, Repr

def Content.put (path : String) (tree : FileTree) : Content → FileTree
  | .file contents => tree.write path contents
  | .directory => tree.makeDirectory path

inductive Step where
  | write (path : String) (content : Content)
  | remove (path : String)
  | openReader (name : String) (plan : ReaderPlan)
  | metadata (name : String)
  | key (name : String) (version : UInt32)

inductive Answer where
  | done
  | text (text : String)
  | fault (fault : StoreFault)
  | noReader
deriving DecidableEq

def Answer.ofOutcome : Except StoreFault String → Answer
  | .ok found => .text found
  | .error reason => .fault reason

structure Session where
  tree : FileTree
  /-- The readers with their names, the newest first. -/
  readers : List (String × Reader)

namespace Session

def start (tree : FileTree) : Session := ⟨tree, []⟩

def ask (session : Session) (name : String) (question : Reader → Except StoreFault String) :
    Answer :=
  match session.readers.lookup name with
  | some reader => .ofOutcome (question reader)
  | none => .noReader

/-- Takes a step. A reader that cannot be opened leaves an older one of its name in place. -/
def step (session : Session) : Step → Session × Answer
  | .write path content => ({ session with tree := content.put path session.tree }, .done)
  | .remove path => ({ session with tree := session.tree.remove path }, .done)
  | .openReader name plan =>
      match plan.build session.tree.access with
      | .ok reader => ({ session with readers := (name, reader) :: session.readers }, .done)
      | .error fault => (session, .fault fault)
  | .metadata name =>
      (session, session.ask name fun reader => (reader.metadata session.tree.access).outcome)
  | .key name version =>
      (session, session.ask name fun reader => (reader.key session.tree.access version).outcome)

def run : Session → List Step → List Answer
  | _, [] => []
  | session, step :: steps =>
      let (next, answer) := session.step step
      answer :: next.run steps

end Session

end KeyStore
