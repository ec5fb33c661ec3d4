import KeyStore.Session
import KeyStore.Proofs.Import.Loading
import KeyStore.Proofs.Reader.Layers

/-!
# Snapshots and live readers

What a reader answers in the course of a session. A reader of an imported key gives the same texts
until its name is taken by another reader. A reader of a directory, under any layers, answers each
question from the files as they are at that step.
-/

namespace KeyStore

namespace Step

def change (tree : FileTree) : Step → FileTree
  | .write path content => content.put path tree
  | .remove path => tree.remove path
  | .openReader _ _ | .metadata _ | .key _ _ => tree

end Step

namespace Session

def after (session : Session) (steps : List Step) : Session :=
  steps.foldl (fun session step => (session.step step).1) session

def Reopens (session : Session) (name : String) (step : Step) : Prop :=
  ∃ plan reader, step = .openReader name plan ∧ plan.build session.tree.access = .ok reader

/-- No step of the row opens a reader under the name. -/
def Keeps (name : String) : Session → List Step → Prop
  | _, [] => True
  | session, step :: steps =>
      ¬session.Reopens name step ∧ Keeps name (session.step step).1 steps

theorem run_append (session : Session) (first second : List Step) :
    session.run (first ++ second) = session.run first ++ (session.after first).run second := by
  induction first generalizing session with
  | nil => rfl
  | cons step steps inductionHypothesis =>
      show (session.step step).2 :: (session.step step).1.run (steps ++ second) = _
      rw [inductionHypothesis]
      rfl

/-- The last answer of a row of steps is the answer to the last step. -/
theorem run_concat (session : Session) (steps : List Step) (question : Step) :
    session.run (steps ++ [question]) =
      session.run steps ++ [((session.after steps).step question).2] :=
  run_append session steps [question]

theorem after_append (session : Session) (first second : List Step) :
    session.after (first ++ second) = (session.after first).after second :=
  List.foldl_append

theorem tree_step (session : Session) (step : Step) :
    (session.step step).1.tree = step.change session.tree := by
  cases step with
  | write path content => rfl
  | remove path => rfl
  | openReader name plan =>
      rw [Session.step]
      split
      · rfl
      · rfl
  | metadata name => rfl
  | key name version => rfl

/-- The files change by the steps that write and remove, and by no others. -/
theorem tree_after (session : Session) (steps : List Step) :
    (session.after steps).tree = steps.foldl Step.change session.tree := by
  induction steps generalizing session with
  | nil => rfl
  | cons step steps inductionHypothesis =>
      rw [List.foldl_cons, ← tree_step]
      exact inductionHypothesis (session.step step).1

theorem lookup_step {session : Session} {name : String} {step : Step}
    (kept : ¬session.Reopens name step) :
    (session.step step).1.readers.lookup name = session.readers.lookup name := by
  cases step with
  | write path content => rfl
  | remove path => rfl
  | openReader other plan =>
      rw [Session.step]
      cases built : plan.build session.tree.access with
      | error fault => rfl
      | ok reader =>
          have different : name ≠ other := by
            rintro rfl
            exact kept ⟨plan, reader, rfl, built⟩
          rw [List.lookup_cons, beq_false_of_ne different]
  | metadata name => rfl
  | key name version => rfl

/-- A reader stays under its name until the name is opened anew. -/
theorem lookup_after {session : Session} {name : String} {steps : List Step}
    (kept : session.Keeps name steps) :
    (session.after steps).readers.lookup name = session.readers.lookup name := by
  induction steps generalizing session with
  | nil => rfl
  | cons step steps inductionHypothesis =>
      rw [← lookup_step kept.1]
      exact inductionHypothesis kept.2

theorem step_openReader {session : Session} {name : String} {plan : ReaderPlan} {reader : Reader}
    (built : plan.build session.tree.access = .ok reader) :
    session.step (.openReader name plan) =
      ({ session with readers := (name, reader) :: session.readers }, .done) := by
  rw [Session.step, built]

theorem exists_build_of_done {session : Session} {name : String} {plan : ReaderPlan}
    (opened : (session.step (.openReader name plan)).2 = .done) :
    ∃ reader, plan.build session.tree.access = .ok reader := by
  rw [Session.step] at opened
  split at opened
  · next reader built => exact ⟨reader, built⟩
  · contradiction

section Questions

variable {session : Session} {name : String} {reader : Reader}

theorem answer_metadata (found : session.readers.lookup name = some reader) :
    (session.step (.metadata name)).2 =
      .ofOutcome (reader.metadata session.tree.access).outcome := by
  rw [Session.step, ask, found]

theorem answer_key (found : session.readers.lookup name = some reader) (version : UInt32) :
    (session.step (.key name version)).2 =
      .ofOutcome (reader.key session.tree.access version).outcome := by
  rw [Session.step, ask, found]

/-- Between its opening and the next one of its name a reader answers every question. -/
theorem run_questions {plan : ReaderPlan} {steps : List Step}
    (built : plan.build session.tree.access = .ok reader)
    (kept : (session.after [.openReader name plan]).Keeps name steps) :
    let files := (steps.foldl Step.change session.tree).access
    session.run (.openReader name plan :: steps ++ [.metadata name]) =
        session.run (.openReader name plan :: steps) ++
          [.ofOutcome (reader.metadata files).outcome] ∧
      ∀ version, session.run (.openReader name plan :: steps ++ [.key name version]) =
        session.run (.openReader name plan :: steps) ++
          [.ofOutcome (reader.key files version).outcome] := by
  intro files
  have opened : (session.after [.openReader name plan]).readers =
      (name, reader) :: session.readers :=
    congrArg (fun result => result.1.readers) (step_openReader built)
  have later : session.after (.openReader name plan :: steps) =
      (session.after [.openReader name plan]).after steps :=
    after_append session [.openReader name plan] steps
  have found : (session.after (.openReader name plan :: steps)).readers.lookup name =
      some reader := by
    rw [later, lookup_after kept, opened, List.lookup_cons_self]
  have sameFiles : (session.after (.openReader name plan :: steps)).tree.access = files := by
    rw [tree_after]
    rfl
  constructor
  · rw [run_concat, answer_metadata found, sameFiles]
  · intro version
    rw [run_concat, answer_key found, sameFiles]

end Questions

end Session

namespace ReaderPlan

def IsImport : ReaderPlan → Prop
  | .imported _ _ | .aes _ => True
  | .directory _ | .forwarding _ | .decrypting _ _ | .passwordProtected _ _ => False

theorem exists_imported_of_build {plan : ReaderPlan} (isImport : plan.IsImport)
    {files : FileAccess} {reader : Reader} (built : plan.build files = .ok reader) :
    ∃ metadata key, reader = .imported metadata key := by
  cases plan with
  | imported importer path => exact Importer.exists_imported_of_run built
  | aes key =>
      rw [← Except.ok.inj built]
      exact ⟨_, _, rfl⟩
  | directory path => contradiction
  | forwarding inner => contradiction
  | decrypting inner decrypter => contradiction
  | passwordProtected inner password => contradiction

def wrap (inner : ReaderPlan) : Layer → ReaderPlan
  | .forwarding => .forwarding inner
  | .decrypting decrypter => .decrypting inner decrypter
  | .passwordProtected password => .passwordProtected inner password

def stack (base : ReaderPlan) (layers : List Layer) : ReaderPlan :=
  layers.foldl wrap base

theorem build_stack {files : FileAccess} (layers : List Layer) {plan : ReaderPlan}
    {reader : Reader} (built : plan.build files = .ok reader) :
    (plan.stack layers).build files = .ok (reader.stack layers) := by
  induction layers generalizing plan reader with
  | nil => exact built
  | cons layer layers inductionHypothesis =>
      apply inductionHypothesis
      cases layer with
      | forwarding =>
          rw [wrap, build, built]
          rfl
      | decrypting decrypter =>
          rw [wrap, build, built]
          rfl
      | passwordProtected password =>
          rw [wrap, build, built]
          rfl

end ReaderPlan

def FileAccess.textAt (files : FileAccess) (path : String) : Except StoreFault String :=
  (files.readText path).mapError (.file path)

theorem outcome_readEntry_eq (files : FileAccess) (path : String) :
    (readEntry files path).outcome = files.textAt path := by
  simp only [readEntry, Log.Traced.outcome_bind, Log.Traced.outcome_emit, Except.bind,
    FileAccess.textAt]
  cases files.readText path with
  | error fault => rfl
  | ok text => rfl

namespace Session

/-- From its opening to the next successful one of its name, a reader of an imported key answers
with the same two texts whatever happens to the files and to other readers, and a stack of layers
over a directory answers from the files that the steps up to the question have left. -/
theorem imports_are_snapshots_and_directories_live (session : Session) (name : String) :
    (∀ plan : ReaderPlan, plan.IsImport →
      (session.step (.openReader name plan)).2 = .done →
      ∃ metadata key : String, ∀ steps,
        (session.after [.openReader name plan]).Keeps name steps →
        session.run (.openReader name plan :: steps ++ [.metadata name]) =
            session.run (.openReader name plan :: steps) ++ [.text metadata] ∧
          ∀ version, session.run (.openReader name plan :: steps ++ [.key name version]) =
            session.run (.openReader name plan :: steps) ++ [.text key]) ∧
    (∀ (path : String) (layers : List Layer) (steps : List Step),
      let plan := (ReaderPlan.directory path).stack layers
      let location := StoreLocation.ofPath path
      let files := (steps.foldl Step.change session.tree).access
      (session.step (.openReader name plan)).2 = .done ∧
      ((session.after [.openReader name plan]).Keeps name steps →
        session.run (.openReader name plan :: steps ++ [.metadata name]) =
            session.run (.openReader name plan :: steps) ++
              [.ofOutcome (files.textAt location.metadataPath)] ∧
          ∀ version, session.run (.openReader name plan :: steps ++ [.key name version]) =
            session.run (.openReader name plan :: steps) ++
              [.ofOutcome ((files.textAt (location.versionPath version)).bind
                (layers.foldlM fun text layer => layer.transform text))])) := by
  constructor
  · intro plan isImport opened
    obtain ⟨reader, built⟩ := exists_build_of_done opened
    obtain ⟨metadata, key, rfl⟩ := plan.exists_imported_of_build isImport built
    refine ⟨Recorded.serialize metadata, key.serialize, ?_⟩
    intro steps kept
    exact run_questions built kept
  · intro path layers steps plan location files
    have built : plan.build session.tree.access = .ok (Reader.stack (.directory location) layers) :=
      ReaderPlan.build_stack layers rfl
    refine ⟨by rw [step_openReader built], fun kept => ?_⟩
    obtain ⟨askMetadata, askKey⟩ := run_questions built kept
    constructor
    · rw [askMetadata, Reader.metadata_stack, Reader.metadata, outcome_readEntry_eq]
    · intro version
      rw [askKey, Reader.key_stack, Reader.key, outcome_readEntry_eq]
      rfl

example :
    (Session.start .empty).run
      [.openReader "r" ((ReaderPlan.directory "d").stack [.forwarding]), .write "d/1" (.file [97]),
        .key "r" 1, .write "d/1" (.file [98]), .key "r" 1] =
      [.done, .done, .text "a", .done, .text "b"] := by
  rfl

end Session

end KeyStore
