import KeyStore.Proofs.Reader.Incomplete

/-!
# Stacks of layers

A reader with layers around it reads what its base reads and hands the text from layer to layer,
the innermost first. The first fault on this way is the outcome, whatever the layers outside are.
-/

namespace KeyStore

inductive Layer where
  | forwarding
  | decrypting (decrypter : Decrypter)
  | passwordProtected (password : Bytes)

namespace Layer

def wrap (inner : Reader) : Layer → Reader
  | .forwarding => .forwarding inner
  | .decrypting decrypter => .decrypting inner decrypter
  | .passwordProtected password => .passwordProtected inner password

def transform (text : String) : Layer → Except StoreFault String
  | .forwarding => .ok text
  | .decrypting decrypter => do
      let bytes ← decrypter text
      decryptedText bytes
  | .passwordProtected password => do
      let envelope ← parseEnvelope text
      let bytes ← envelope.decrypt password
      decryptedText bytes

end Layer

namespace Reader

/-- A base with layers around it, the innermost first. -/
def stack (base : Reader) (layers : List Layer) : Reader :=
  layers.foldl Layer.wrap base

theorem stack_cons (base : Reader) (layer : Layer) (layers : List Layer) :
    base.stack (layer :: layers) = (layer.wrap base).stack layers :=
  rfl

theorem stack_append (base : Reader) (inner outer : List Layer) :
    base.stack (inner ++ outer) = (base.stack inner).stack outer :=
  List.foldl_append

theorem metadata_wrap (files : FileAccess) (inner : Reader) (layer : Layer) :
    (layer.wrap inner).metadata files = inner.metadata files := by
  cases layer with
  | forwarding => rfl
  | decrypting decrypter => rfl
  | passwordProtected password => rfl

theorem outcome_openProtected (version : UInt32) (password : Bytes) (text : String) :
    (openProtected version password text).outcome =
      (Layer.passwordProtected password).transform text := by
  have opened (envelope : Envelope) :
      (openEnvelope version password envelope).outcome = envelope.decrypt password := by
    unfold openEnvelope
    split
    · next decrypted => exact decrypted.symm
    · next refused => exact refused.symm
  simp only [openProtected, Log.Traced.outcome_bind, Log.Traced.outcome_ofOutcome,
    Log.Traced.outcome_emit, opened]
  rfl

/-- A layer transforms what the reader inside reads. -/
theorem key_wrap (files : FileAccess) (version : UInt32) (inner : Reader) (layer : Layer) :
    ((layer.wrap inner).key files version).outcome =
      (inner.key files version).outcome.bind fun text => layer.transform text := by
  cases layer with
  | forwarding =>
      show (inner.key files version).outcome = _
      cases (inner.key files version).outcome with
      | error fault => rfl
      | ok text => rfl
  | decrypting decrypter =>
      rw [Layer.wrap, key, Log.Traced.outcome_bind]
      rfl
  | passwordProtected password =>
      rw [Layer.wrap, key, Log.Traced.outcome_bind]
      simp only [outcome_openProtected]

theorem metadata_stack (files : FileAccess) (layers : List Layer) (base : Reader) :
    (base.stack layers).metadata files = base.metadata files := by
  induction layers generalizing base with
  | nil => rfl
  | cons layer layers inductionHypothesis =>
      rw [stack_cons, inductionHypothesis, metadata_wrap]

/-- The transforms of a stack one after the other, up to the first fault. -/
def transformAll (layers : List Layer) (text : String) : Except StoreFault String :=
  layers.foldlM (fun text layer => layer.transform text) text

theorem key_stack (files : FileAccess) (version : UInt32) (layers : List Layer) (base : Reader) :
    ((base.stack layers).key files version).outcome =
      (base.key files version).outcome.bind (transformAll layers) := by
  induction layers generalizing base with
  | nil =>
      show (base.key files version).outcome = _
      cases (base.key files version).outcome with
      | error fault => rfl
      | ok text => rfl
  | cons layer layers inductionHypothesis =>
      rw [stack_cons, inductionHypothesis, key_wrap]
      cases (base.key files version).outcome with
      | error fault => rfl
      | ok text =>
          simp only [Except.bind, transformAll, List.foldlM_cons]
          rfl

theorem key_stack_of_error {files : FileAccess} {version : UInt32} {inner : Reader}
    {fault : StoreFault} (failed : (inner.key files version).outcome = .error fault)
    (layers : List Layer) :
    ((inner.stack layers).key files version).outcome = .error fault := by
  rw [key_stack, failed, Except.bind]

theorem decryptedText_eq_error_iff {bytes : Bytes} {fault : StoreFault} :
    decryptedText bytes = .error fault ↔
      fault = .notText ∧ ∀ text, Utf8.encode text ≠ bytes := by
  constructor
  · intro failed
    rcases decryptedText_cases bytes with notText | ⟨text, isText, _⟩
    · rw [notText] at failed
      refine ⟨(Except.error.inj failed).symm, ?_⟩
      rintro text rfl
      rw [decryptedText_eq_ok_iff.mpr rfl] at notText
      contradiction
    · rw [isText] at failed
      contradiction
  · rintro ⟨rfl, noText⟩
    rcases decryptedText_cases bytes with notText | ⟨text, _, encoded⟩
    · exact notText
    · exact absurd encoded (noText text)

/-- A stack answers a question about metadata as its base does. A key goes from the base through
the layers, the innermost first, each of which reads the bytes it ends with strictly as UTF-8. A
fault of the base or of a layer is the outcome whatever the layers around it are. -/
theorem stack_folds_layers (files : FileAccess) (version : UInt32) (base : Reader)
    (layers : List Layer) :
    (base.stack layers).metadata files = base.metadata files ∧
    ((base.stack layers).key files version).outcome =
      (base.key files version).outcome.bind
        (layers.foldlM fun text layer => layer.transform text) ∧
    (∀ fault, ((base.stack layers).key files version).outcome = .error fault →
      ∀ outer, ((base.stack (layers ++ outer)).key files version).outcome = .error fault) ∧
    ∀ bytes,
      (∀ text, decryptedText bytes = .ok text ↔ Utf8.encode text = bytes) ∧
      ∀ fault, decryptedText bytes = .error fault ↔
        fault = .notText ∧ ∀ text, Utf8.encode text ≠ bytes := by
  refine ⟨metadata_stack files layers base, key_stack files version layers base, ?_, ?_⟩
  · intro fault failed outer
    rw [stack_append]
    exact key_stack_of_error failed outer
  · intro bytes
    refine ⟨fun text => ?_, fun fault => decryptedText_eq_error_iff⟩
    rw [decryptedText_eq_ok_iff]
    exact eq_comm

end Reader

end KeyStore
