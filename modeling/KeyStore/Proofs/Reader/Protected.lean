import KeyStore.Reader.Basic
import KeyStore.Proofs.Json.RoundTrip
import KeyStore.Proofs.Protection

/-!
# Keys that are protected by a password

What a reader makes of the text of a protected version: the plaintext of the envelope under the
right password, and in every other case a fault that says nothing about the password.
-/

namespace KeyStore

open Log Json

namespace Envelope

def fields : Fields :=
  .cons "cipher" .text
    (.cons "hmac" .text
      (.cons "iterationCount" .word32
        (.cons "iv" .text
          (.cons "key" .text
            (.cons "salt" .text .nil)))))

theorem shape_eq : Recorded.shape Envelope = .record "PbeEnvelope" true fields := rfl

theorem isFaithful_fields : fields.IsFaithful := by
  simp only [fields, Shape.IsFaithful, Fields.IsFaithful, Fields.names, Shape.word32]
  decide

theorem isFaithful_shape : (Recorded.shape Envelope).IsFaithful := by
  rw [shape_eq]
  exact isFaithful_fields

/-- The fault of an envelope that does not name the two known algorithms. -/
def algorithmFault (cipher hmac : String) : StoreFault :=
  if cipher ≠ "AES128" then .unsupported .cipher cipher else .unsupported .hmac hmac

theorem kind_algorithmFault (cipher hmac : String) :
    (algorithmFault cipher hmac).kind = .unsupportedAlgorithm := by
  unfold algorithmFault
  split
  · rfl
  · rfl

theorem decrypt_of_unsupported {envelope : Envelope}
    (unsupported : envelope.cipher ≠ "AES128" ∨ envelope.hmac ≠ "HMAC_SHA1")
    (password : Bytes) :
    envelope.decrypt password = .error (algorithmFault envelope.cipher envelope.hmac) := by
  have refused :
      envelope.checkAlgorithms = .error (algorithmFault envelope.cipher envelope.hmac) := by
    by_cases cipher : envelope.cipher = "AES128"
    · have hmac : envelope.hmac ≠ "HMAC_SHA1" :=
        unsupported.resolve_left (not_not_intro cipher)
      rw [checkAlgorithms_of_hmac cipher hmac, algorithmFault, if_neg (not_not_intro cipher)]
    · rw [checkAlgorithms_of_cipher cipher, algorithmFault, if_pos cipher]
  rw [decrypt, refused]
  rfl

theorem kind_of_mem_defects {envelope : Envelope} {fault : StoreFault}
    (member : fault ∈ envelope.defects) :
    fault.kind = .decoding ∨ fault.kind = .parsing ∨
      fault.kind = .unsupportedAlgorithm ∧
        (envelope.cipher ≠ "AES128" ∨ envelope.hmac ≠ "HMAC_SHA1") := by
  have ofField {name text : String} (member : fault ∈ fieldDefects name text) :
      fault.kind = .decoding := by
    unfold fieldDefects at member
    split at member
    · exact absurd member List.not_mem_nil
    · rw [List.mem_singleton.mp member]
      rfl
  simp only [defects, List.mem_append] at member
  rcases member with (cipher | hmac) | salt | vector | text | iterations | vectorLength | textLength
  · obtain ⟨different, equality⟩ := List.mem_ite_nil_left.mp cipher
    rw [List.mem_singleton.mp equality]
    exact .inr (.inr ⟨rfl, .inl different⟩)
  · obtain ⟨different, equality⟩ := List.mem_ite_nil_left.mp hmac
    rw [List.mem_singleton.mp equality]
    exact .inr (.inr ⟨rfl, .inr different⟩)
  · exact .inl (ofField salt)
  · exact .inl (ofField vector)
  · exact .inl (ofField text)
  · obtain ⟨_, equality⟩ := List.mem_ite_nil_left.mp iterations
    rw [List.mem_singleton.mp equality]
    exact .inr (.inl rfl)
  · unfold vectorDefects at vectorLength
    split at vectorLength
    · obtain ⟨_, equality⟩ := List.mem_ite_nil_left.mp vectorLength
      rw [List.mem_singleton.mp equality]
      exact .inr (.inl rfl)
    · exact absurd vectorLength List.not_mem_nil
  · unfold textDefects at textLength
    split at textLength
    · obtain ⟨_, equality⟩ := List.mem_ite_nil_left.mp textLength
      rw [List.mem_singleton.mp equality]
      exact .inr (.inl rfl)
    · exact absurd textLength List.not_mem_nil

end Envelope

section Opening

variable {version : UInt32} {password : Bytes} {text : String}

theorem exists_json_of_parseEnvelope {fault : StoreFault}
    (parsed : parseEnvelope text = .error fault) :
    ∃ located, fault = .json located := by
  unfold parseEnvelope at parsed
  split at parsed
  · contradiction
  · next located _ => exact ⟨located, (Except.error.inj parsed).symm⟩

theorem openProtected_of_parse_error {fault : StoreFault}
    (parsed : parseEnvelope text = .error fault) :
    openProtected version password text = ⟨[], .error fault⟩ := by
  rw [openProtected, parsed]
  rfl

theorem openProtected_of_fault {envelope : Envelope} {fault : StoreFault}
    (parsed : parseEnvelope text = .ok envelope)
    (failed : envelope.decrypt password = .error fault) :
    openProtected version password text =
      ⟨.openingKey version envelope.iterationCount :: rejection version fault, .error fault⟩ := by
  rw [openProtected, parsed]
  simp only [Traced.ofOutcome, Traced.emit, openEnvelope, failed, bind, Traced.andThen,
    List.nil_append, List.cons_append]

theorem openProtected_of_plaintext {envelope : Envelope} {plaintext : Bytes}
    (parsed : parseEnvelope text = .ok envelope)
    (decrypted : envelope.decrypt password = .ok plaintext) :
    openProtected version password text =
      ⟨[.openingKey version envelope.iterationCount], decryptedText plaintext⟩ := by
  rw [openProtected, parsed]
  simp only [Traced.ofOutcome, Traced.emit, openEnvelope, decrypted, bind, Traced.andThen,
    List.nil_append, List.append_nil]

/-- What the text of a version comes to is settled without the password, apart from the plaintext of
an envelope whose parts fit. -/
theorem openProtected_cases (version : UInt32) (text : String) :
    (∃ fault, parseEnvelope text = .error (.json fault) ∧
      ∀ password, openProtected version password text = ⟨[], .error (.json fault)⟩) ∨
    (∃ envelope fault, parseEnvelope text = .ok envelope ∧ fault ∈ envelope.defects ∧
      ∀ password, openProtected version password text =
        ⟨.openingKey version envelope.iterationCount :: rejection version fault, .error fault⟩) ∨
    ∃ envelope salt vector ciphertext, parseEnvelope text = .ok envelope ∧
      envelope.Sound salt vector ciphertext ∧
        ∀ password, ∃ plaintext, envelope.decrypt password = .ok plaintext ∧
          plaintext.length = ciphertext.length ∧
          openProtected version password text =
            ⟨[.openingKey version envelope.iterationCount], decryptedText plaintext⟩ := by
  cases parsed : parseEnvelope text with
  | error fault =>
      obtain ⟨located, rfl⟩ := exists_json_of_parseEnvelope parsed
      exact .inl ⟨located, rfl, fun _ => openProtected_of_parse_error parsed⟩
  | ok envelope =>
      refine .inr ?_
      -- The defects are those of the envelope alone, so this case split covers every password.
      cases defective : envelope.defects with
      | cons fault others =>
          refine .inl ⟨envelope, fault, rfl, ?_, fun password => ?_⟩
          · rw [defective]
            exact List.mem_cons_self
          · refine openProtected_of_fault parsed ?_
            rw [(envelope.decrypt_firstOf password).error_iff, defective, List.head?_cons]
      | nil =>
          obtain ⟨salt, vector, ciphertext, sound⟩ := Envelope.defects_eq_nil_iff.mp defective
          refine .inr ⟨envelope, salt, vector, ciphertext, rfl, sound, fun password => ?_⟩
          obtain ⟨key, plaintext, _, chained, decrypted⟩ :=
            Envelope.decrypt_of_sound sound password
          exact ⟨plaintext, decrypted, Chaining.length_of_decrypt chained,
            openProtected_of_plaintext parsed decrypted⟩

/-- An envelope is reported when it is opened, and when its algorithms are refused. -/
theorem mem_events_openProtected {event : Event}
    (member : event ∈ (openProtected version password text).events) :
    (∃ iterations, event = .openingKey version iterations) ∨
      ∃ envelope, parseEnvelope text = .ok envelope ∧
        (envelope.cipher ≠ "AES128" ∨ envelope.hmac ≠ "HMAC_SHA1") ∧
        event = .rejectedEnvelope version
          (Envelope.algorithmFault envelope.cipher envelope.hmac) := by
  rcases openProtected_cases version text with
    ⟨_, _, opened⟩ | ⟨envelope, defect, parsed, isDefect, opened⟩ | ⟨_, _, _, _, _, _, opened⟩
  · rw [opened] at member
    exact absurd member List.not_mem_nil
  · rw [opened] at member
    rcases List.mem_cons.mp member with opening | rejected
    · exact .inl ⟨_, opening⟩
    · rcases Envelope.kind_of_mem_defects isDefect with kind | kind | ⟨_, unsupported⟩
      · rw [rejection, kind] at rejected
        exact absurd rejected List.not_mem_nil
      · rw [rejection, kind] at rejected
        exact absurd rejected List.not_mem_nil
      · have refused := @openProtected_of_fault version password text _ _ parsed
          (Envelope.decrypt_of_unsupported unsupported password)
        rw [opened] at refused
        -- Of several defects the algorithm is the one that is told.
        obtain rfl := Except.error.inj (congrArg Traced.outcome refused)
        rw [rejection, Envelope.kind_algorithmFault] at rejected
        exact .inr ⟨envelope, parsed, unsupported, List.mem_singleton.mp rejected⟩
  · obtain ⟨_, _, _, equality⟩ := opened password
    rw [equality] at member
    exact .inl ⟨_, List.mem_singleton.mp member⟩

end Opening

/-! ## Reading a protected version -/

namespace Reader

variable {files : FileAccess} {inner : Reader} {version : UInt32}

theorem key_of_inner_error {fault : StoreFault}
    (failed : (inner.key files version).outcome = .error fault) (password : Bytes) :
    (passwordProtected inner password).key files version =
      ⟨(inner.key files version).events, .error fault⟩ := by
  rw [key, Traced.bind_of_error failed]

theorem key_of_inner_text {stored : String}
    (read : (inner.key files version).outcome = .ok stored) (password : Bytes) :
    (passwordProtected inner password).key files version =
      ⟨(inner.key files version).events ++ (openProtected version password stored).events,
        (openProtected version password stored).outcome⟩ := by
  rw [key, Traced.bind_of_ok read]

theorem key_directory_of_file {location : StoreLocation} {text : String}
    (file : files (location.versionPath version) = .ok (Utf8.encode text)) :
    ((directory location).key files version).outcome = .ok text := by
  rw [key]
  exact outcome_readEntry file

/-- The plaintext of an envelope comes back unchanged under the password it was encrypted with. -/
theorem key_returns_encrypted_text (password salt vector : Bytes) (iterations : UInt32)
    (text : String) (vectorLength : vector.length = 16) (positive : 1 ≤ iterations.toNat)
    (whole : (Utf8.encode text).length % 16 = 0) :
    ∃ key ciphertext,
      PasswordKey.derive? password salt iterations = some key ∧
      Chaining.encrypt key vector (Utf8.encode text) = .ok ciphertext ∧
      ∀ (files : FileAccess) (inner : Reader) (version : UInt32),
        (inner.key files version).outcome = .ok (Recorded.serialize
          ({ cipher := "AES128", hmac := "HMAC_SHA1", iterationCount := iterations,
             iv := WebSafe.encode vector, key := WebSafe.encode ciphertext,
             salt := WebSafe.encode salt } : Envelope)) →
        ((passwordProtected inner password).key files version).outcome = .ok text := by
  obtain ⟨key, derived, _, keyLength⟩ :=
    Envelope.exists_deriveKey_eq password salt (Envelope.toNat_pos_iff.mp positive)
  obtain ⟨ciphertext, encrypted⟩ :=
    Chaining.exists_run_eq Chaining.encryptBlocks keyLength vectorLength whole
  refine ⟨key, ciphertext, derived, encrypted, ?_⟩
  intro files inner version read
  have decrypted := Chaining.decrypt_eq_ok_iff.mpr encrypted
  have ciphertextLength : ciphertext.length % 16 = 0 := by
    rw [← Chaining.length_of_decrypt decrypted]
    exact whole
  have sound : Envelope.Sound
      { cipher := "AES128", hmac := "HMAC_SHA1", iterationCount := iterations,
        iv := WebSafe.encode vector, key := WebSafe.encode ciphertext,
        salt := WebSafe.encode salt } salt vector ciphertext :=
    ⟨rfl, rfl, WebSafe.decode_encode salt, WebSafe.decode_encode vector,
      WebSafe.decode_encode ciphertext, positive, vectorLength, ciphertextLength⟩
  have opened := Envelope.decrypt_eq_ok_iff.mpr
    ⟨salt, vector, ciphertext, key, sound, derived, decrypted⟩
  rw [key_of_inner_text read]
  rw [openProtected_of_plaintext ?_ opened]
  · rw [decryptedText, Utf8.decode?_encode]
  · rw [parseEnvelope, Recorded.parse_serialize Envelope.isFaithful_shape]

theorem key_returns_encrypted_text_of_one_block :
    (List.replicate 16 (0 : UInt8)).length = 16 ∧ 1 ≤ (1000 : UInt32).toNat ∧
      (Utf8.encode "0123456789abcdef").length % 16 = 0 ∧
      ∃ (files : FileAccess) (inner : Reader) (stored : String),
        (inner.key files 1).outcome = .ok stored ∧
        ((passwordProtected inner (Utf8.encode "cleartext")).key files 1).outcome =
          .ok "0123456789abcdef" := by
  have whole : (Utf8.encode "0123456789abcdef").length % 16 = 0 := by
    decide +kernel
  refine ⟨List.length_replicate, by decide, whole, ?_⟩
  obtain ⟨_, ciphertext, _, _, returns⟩ := key_returns_encrypted_text (Utf8.encode "cleartext")
    [1, 2, 3] (List.replicate 16 0) 1000 "0123456789abcdef" List.length_replicate (by decide) whole
  have stored (text : String) :
      ((directory (.ofPath "store")).key (fun _ => .ok (Utf8.encode text)) 1).outcome = .ok text :=
    key_directory_of_file rfl
  exact ⟨_, _, _, stored _, returns _ _ _ (stored _)⟩

/-! ## What a password can change -/

/-- An outcome is a text as long as the encrypted text that is stored, or says that the plaintext is
no text. -/
def IsPlaintextOrNotText (stored outcome : Except StoreFault String) : Prop :=
  outcome = .error .notText ∨
    ∃ text envelope ciphertext plaintext, stored = .ok text ∧ parseEnvelope text = .ok envelope ∧
      WebSafe.decode envelope.key = .ok ciphertext ∧ outcome = .ok plaintext ∧
      (Utf8.encode plaintext).length = ciphertext.length

def HoldsUnsupported (stored : Except StoreFault String) (envelope : Envelope) : Prop :=
  ∃ text, stored = .ok text ∧ parseEnvelope text = .ok envelope ∧
    (envelope.cipher ≠ "AES128" ∨ envelope.hmac ≠ "HMAC_SHA1")

theorem decryptedText_cases (bytes : Bytes) :
    decryptedText bytes = .error .notText ∨
      ∃ text, decryptedText bytes = .ok text ∧ Utf8.encode text = bytes := by
  cases read : Utf8.decode? bytes with
  | none =>
      refine .inl ?_
      rw [decryptedText, read]
  | some text =>
      refine .inr ⟨text, ?_, ?_⟩
      · rw [decryptedText, read]
      · exact Utf8.decode?_eq_some_iff.mp read

theorem key_cases (files : FileAccess) (inner : Reader) (version : UInt32) :
    (∃ fault, (inner.key files version).outcome = .error fault ∧
      ∀ password, (passwordProtected inner password).key files version =
        ⟨(inner.key files version).events, .error fault⟩) ∨
    ∃ stored, (inner.key files version).outcome = .ok stored ∧
      ∀ password, (passwordProtected inner password).key files version =
        ⟨(inner.key files version).events ++ (openProtected version password stored).events,
          (openProtected version password stored).outcome⟩ := by
  cases read : (inner.key files version).outcome with
  | error fault => exact .inl ⟨fault, rfl, key_of_inner_error read⟩
  | ok stored => exact .inr ⟨stored, rfl, key_of_inner_text read⟩

/-- A fault other than a plaintext that is no text shows under every password. -/
theorem key_error_of_other_password {left : Bytes} {fault : StoreFault}
    (notPlaintext : fault ≠ .notText)
    (failed : ((passwordProtected inner left).key files version).outcome = .error fault)
    (right : Bytes) :
    ((passwordProtected inner right).key files version).outcome = .error fault := by
  rcases key_cases files inner version with ⟨other, _, same⟩ | ⟨stored, _, same⟩
  · rw [same] at failed ⊢
    exact failed
  · rw [same] at failed ⊢
    rcases openProtected_cases version stored with ⟨_, _, opened⟩ | ⟨_, _, _, _, opened⟩ |
      ⟨_, _, _, _, _, _, opened⟩
    · rw [opened] at failed ⊢
      exact failed
    · rw [opened] at failed ⊢
      exact failed
    · obtain ⟨plaintext, _, _, equality⟩ := opened left
      rw [equality] at failed
      rcases decryptedText_cases plaintext with noText | ⟨text, isText, _⟩
      · rw [noText] at failed
        injection failed with sameFault
        exact absurd sameFault.symm notPlaintext
      · rw [isText] at failed
        contradiction

/-- Without another fault every password leads to a text of the right length or to a plaintext that
is no text. -/
theorem isPlaintextOrNotText_key {left : Bytes}
    (onlyNotText : ∀ fault,
      ((passwordProtected inner left).key files version).outcome = .error fault →
        fault = .notText)
    (right : Bytes) :
    IsPlaintextOrNotText (inner.key files version).outcome
      ((passwordProtected inner right).key files version).outcome := by
  rcases key_cases files inner version with ⟨fault, _, same⟩ | ⟨stored, read, same⟩
  · rw [same] at onlyNotText ⊢
    rw [onlyNotText fault rfl]
    exact .inl rfl
  · rw [same] at onlyNotText ⊢
    rcases openProtected_cases version stored with ⟨fault, _, opened⟩ |
      ⟨envelope, fault, _, _, opened⟩ |
      ⟨envelope, _, _, ciphertext, parsed, sound, opened⟩
    · rw [opened] at onlyNotText ⊢
      rw [onlyNotText _ rfl]
      exact .inl rfl
    · rw [opened] at onlyNotText ⊢
      rw [onlyNotText _ rfl]
      exact .inl rfl
    · obtain ⟨plaintext, _, length, equality⟩ := opened right
      rw [equality]
      rcases decryptedText_cases plaintext with noText | ⟨text, isText, encoded⟩
      · exact .inl noText
      · refine .inr ⟨stored, envelope, ciphertext, text, read, parsed, sound.textDecoded,
          isText, ?_⟩
        rw [encoded, length]

/-- An unsupported algorithm is refused and reported in the same words under every password. -/
theorem key_of_unsupported {envelope : Envelope}
    (holds : HoldsUnsupported (inner.key files version).outcome envelope) (password : Bytes) :
    (passwordProtected inner password).key files version =
      ⟨(inner.key files version).events ++
          [.openingKey version envelope.iterationCount,
            .rejectedEnvelope version (Envelope.algorithmFault envelope.cipher envelope.hmac)],
        .error (Envelope.algorithmFault envelope.cipher envelope.hmac)⟩ := by
  obtain ⟨stored, read, parsed, unsupported⟩ := holds
  have refused := Envelope.decrypt_of_unsupported unsupported password
  have reported : rejection version (Envelope.algorithmFault envelope.cipher envelope.hmac) =
      [.rejectedEnvelope version (Envelope.algorithmFault envelope.cipher envelope.hmac)] := by
    rw [rejection, Envelope.kind_algorithmFault]
  rw [key_of_inner_text read, openProtected_of_fault parsed refused, reported]

/-- Nothing but an unsupported algorithm makes a reader report a rejected envelope. -/
theorem noRejection_of_key (supported :
    ∀ envelope, ¬HoldsUnsupported (inner.key files version).outcome envelope) (password : Bytes) :
    ∃ own, ((passwordProtected inner password).key files version).events =
        (inner.key files version).events ++ own ∧
      ∀ rejected fault, .rejectedEnvelope rejected fault ∉ own := by
  rcases key_cases files inner version with ⟨fault, _, same⟩ | ⟨stored, read, same⟩
  · rw [same]
    exact ⟨[], (List.append_nil _).symm, fun _ _ => List.not_mem_nil⟩
  · rw [same]
    refine ⟨(openProtected version password stored).events, rfl, ?_⟩
    intro rejected fault member
    rcases mem_events_openProtected member with
      ⟨iterations, sameEvent⟩ | ⟨envelope, parsed, unsupported, _⟩
    · contradiction
    · exact absurd ⟨stored, read, parsed, unsupported⟩ (supported envelope)

/-- A password has an effect on nothing but the plaintext. -/
theorem password_reaches_plaintext_only (files : FileAccess) (inner : Reader) (version : UInt32) :
    (∀ left right fault, fault ≠ .notText →
      ((passwordProtected inner left).key files version).outcome = .error fault →
      ((passwordProtected inner right).key files version).outcome = .error fault) ∧
    (∀ left,
      (∀ fault, ((passwordProtected inner left).key files version).outcome = .error fault →
        fault = .notText) →
      ∀ right, IsPlaintextOrNotText (inner.key files version).outcome
        ((passwordProtected inner right).key files version).outcome) ∧
    (∀ envelope, HoldsUnsupported (inner.key files version).outcome envelope →
      ∀ password, (passwordProtected inner password).key files version =
        ⟨(inner.key files version).events ++
            [.openingKey version envelope.iterationCount,
              .rejectedEnvelope version (Envelope.algorithmFault envelope.cipher envelope.hmac)],
          .error (Envelope.algorithmFault envelope.cipher envelope.hmac)⟩) ∧
    ((∀ envelope, ¬HoldsUnsupported (inner.key files version).outcome envelope) →
      ∀ password, ∃ own,
        ((passwordProtected inner password).key files version).events =
          (inner.key files version).events ++ own ∧
        ∀ rejected fault, .rejectedEnvelope rejected fault ∉ own) := by
  refine ⟨?_, ?_, ?_, ?_⟩
  · intro left right fault notPlaintext failed
    exact key_error_of_other_password notPlaintext failed right
  · intro left onlyNotText right
    exact isPlaintextOrNotText_key onlyNotText right
  · intro envelope holds password
    exact key_of_unsupported holds password
  · intro supported password
    exact noRejection_of_key supported password

end Reader

end KeyStore
