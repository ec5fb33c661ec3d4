import KeyStore.Protection
import KeyStore.Proofs.Base64.WebSafe
import KeyStore.Proofs.Cipher.ChainingInverse
import KeyStore.Proofs.Digest.PasswordKey

/-!
# What is wrong with an envelope

Each possible defect of an envelope is looked for on its own, and `Envelope.defects` lists them in
the order of the checks. Decryption succeeds exactly when the list is empty and otherwise fails with
its head, whatever the password is.
-/

namespace KeyStore

/-- A chain of checks passes when there is nothing to report, and otherwise fails with the first of
the faults that are to be reported. -/
inductive FirstOf {ε α : Type} : List ε → Except ε α → Prop
  | passes (value : α) : FirstOf [] (.ok value)
  | fails (fault : ε) (others : List ε) : FirstOf (fault :: others) (.error fault)

namespace FirstOf

variable {ε α β : Type} {faults laterFaults : List ε}

/-- What is wrong with the later checks matters only if the earlier ones pass. -/
theorem bind {first : Except ε α} {next : α → Except ε β} (firstHolds : FirstOf faults first)
    (nextHolds : ∀ value, first = .ok value → FirstOf laterFaults (next value)) :
    FirstOf (faults ++ laterFaults) (first >>= next) := by
  cases firstHolds with
  | passes value => exact nextHolds value rfl
  | fails fault others => exact .fails fault (others ++ laterFaults)

theorem error_iff {outcome : Except ε α} (holds : FirstOf faults outcome) (fault : ε) :
    outcome = .error fault ↔ faults.head? = some fault := by
  cases holds with
  | passes value => exact ⟨nofun, nofun⟩
  | fails found others => rw [Except.error.injEq, List.head?_cons, Option.some.injEq]

theorem exists_ok_iff {outcome : Except ε α} (holds : FirstOf faults outcome) :
    (∃ value, outcome = .ok value) ↔ faults = [] := by
  cases holds with
  | passes value => exact ⟨fun _ => rfl, fun _ => ⟨value, rfl⟩⟩
  | fails found others => exact ⟨nofun, nofun⟩

end FirstOf

namespace Envelope

def cipherDefects (envelope : Envelope) : List StoreFault :=
  if envelope.cipher = "AES128" then [] else [.unsupported .cipher envelope.cipher]

def hmacDefects (envelope : Envelope) : List StoreFault :=
  if envelope.hmac = "HMAC_SHA1" then [] else [.unsupported .hmac envelope.hmac]

def fieldDefects (name text : String) : List StoreFault :=
  match WebSafe.decode text with
  | .ok _ => []
  | .error fault => [.base64 name fault]

def iterationDefects (envelope : Envelope) : List StoreFault :=
  if 1 ≤ envelope.iterationCount.toNat then [] else [.noIterations]

/-- The fault of an initialization vector, when it can be decoded, that is not one block long. -/
def vectorDefects (envelope : Envelope) : List StoreFault :=
  match WebSafe.decode envelope.iv with
  | .ok vector =>
      if vector.length = 16 then [] else [.chaining (.keyOrVectorLength 16 vector.length)]
  | .error _ => []

/-- The fault of an encrypted text, when it can be decoded, that has no whole number of blocks. -/
def textDefects (envelope : Envelope) : List StoreFault :=
  match WebSafe.decode envelope.key with
  | .ok text => if text.length % 16 = 0 then [] else [.chaining (.textLength text.length)]
  | .error _ => []

/-- All that is wrong with an envelope, each defect looked for on its own, in the order in which
they are reported. -/
def defects (envelope : Envelope) : List StoreFault :=
  envelope.cipherDefects ++ envelope.hmacDefects ++
    (fieldDefects "salt" envelope.salt ++
      (fieldDefects "iv" envelope.iv ++
        (fieldDefects "key" envelope.key ++
          (envelope.iterationDefects ++ (envelope.vectorDefects ++ envelope.textDefects)))))

/-- The parts of an envelope that can be opened, with the salt, the initialization vector and the
encrypted text that its fields hold. -/
structure Sound (envelope : Envelope) (salt vector text : Bytes) : Prop where
  cipher : envelope.cipher = "AES128"
  hmac : envelope.hmac = "HMAC_SHA1"
  saltDecoded : WebSafe.decode envelope.salt = .ok salt
  vectorDecoded : WebSafe.decode envelope.iv = .ok vector
  textDecoded : WebSafe.decode envelope.key = .ok text
  iterations : 1 ≤ envelope.iterationCount.toNat
  vectorLength : vector.length = 16
  textLength : text.length % 16 = 0

theorem checkAlgorithms_eq_ok {envelope : Envelope} (cipher : envelope.cipher = "AES128")
    (hmac : envelope.hmac = "HMAC_SHA1") : envelope.checkAlgorithms = .ok () := by
  rw [checkAlgorithms, cipher, hmac]
  rfl

theorem checkAlgorithms_of_cipher {envelope : Envelope} (cipher : envelope.cipher ≠ "AES128") :
    envelope.checkAlgorithms = .error (.unsupported .cipher envelope.cipher) :=
  if_pos cipher

theorem checkAlgorithms_of_hmac {envelope : Envelope} (cipher : envelope.cipher = "AES128")
    (hmac : envelope.hmac ≠ "HMAC_SHA1") :
    envelope.checkAlgorithms = .error (.unsupported .hmac envelope.hmac) :=
  (if_neg (not_not_intro cipher)).trans (if_pos hmac)

theorem checkAlgorithms_firstOf (envelope : Envelope) :
    FirstOf (envelope.cipherDefects ++ envelope.hmacDefects) envelope.checkAlgorithms := by
  rw [cipherDefects, hmacDefects]
  by_cases cipher : envelope.cipher = "AES128"
  · by_cases hmac : envelope.hmac = "HMAC_SHA1"
    · rw [checkAlgorithms_eq_ok cipher hmac, if_pos cipher, if_pos hmac]
      exact .passes ()
    · rw [checkAlgorithms_of_hmac cipher hmac, if_pos cipher, if_neg hmac]
      exact .fails _ []
  · rw [checkAlgorithms_of_cipher cipher, if_neg cipher]
    exact .fails _ _

theorem decodeField_firstOf (name text : String) :
    FirstOf (fieldDefects name text) (decodeField name text) := by
  rw [decodeField, fieldDefects]
  cases WebSafe.decode text with
  | ok bytes => exact .passes bytes
  | error fault => exact .fails _ []

theorem decodeField_eq_ok_iff {name text : String} {bytes : Bytes} :
    decodeField name text = .ok bytes ↔ WebSafe.decode text = .ok bytes := by
  rw [decodeField]
  cases WebSafe.decode text with
  | ok other => simp only [Except.ok.injEq]
  | error fault => exact ⟨nofun, nofun⟩

theorem deriveKey_zero (password salt : Bytes) :
    deriveKey password salt 0 = .error .noIterations := by
  rw [deriveKey, PasswordKey.derive?_zero]

/-- With at least one iteration there is a key, and it has the length of one block. -/
theorem exists_deriveKey_eq (password salt : Bytes) {iterations : UInt32}
    (positive : iterations ≠ 0) :
    ∃ key, PasswordKey.derive? password salt iterations = some key ∧
      deriveKey password salt iterations = .ok key ∧ key.length = 16 := by
  obtain ⟨key, derived, length⟩ := PasswordKey.exists_derive?_eq password salt positive
  refine ⟨key, derived, ?_, length⟩
  rw [deriveKey, derived]

theorem toNat_pos_iff {iterations : UInt32} : 1 ≤ iterations.toNat ↔ iterations ≠ 0 := by
  rw [Nat.one_le_iff_ne_zero, ne_eq, ne_eq, ← UInt32.toNat_inj]
  rfl

theorem deriveKey_firstOf (envelope : Envelope) (password salt : Bytes) :
    FirstOf envelope.iterationDefects (deriveKey password salt envelope.iterationCount) := by
  rw [iterationDefects]
  by_cases zero : envelope.iterationCount = 0
  · rw [zero, deriveKey_zero]
    exact .fails _ []
  · obtain ⟨key, _, derived, _⟩ := exists_deriveKey_eq password salt zero
    rw [derived, if_pos (toNat_pos_iff.mpr zero)]
    exact .passes key

theorem length_of_deriveKey {password salt key : Bytes} {iterations : UInt32}
    (derived : deriveKey password salt iterations = .ok key) : key.length = 16 := by
  by_cases zero : iterations = 0
  · rw [zero] at derived
    exact nomatch (deriveKey_zero password salt).symm.trans derived
  · obtain ⟨other, _, found, length⟩ := exists_deriveKey_eq password salt zero
    rw [← Except.ok.inj (found.symm.trans derived), length]

theorem decryptText_firstOf {envelope : Envelope} {key vector text : Bytes}
    (keyLength : key.length = 16) (vectorDecoded : WebSafe.decode envelope.iv = .ok vector)
    (textDecoded : WebSafe.decode envelope.key = .ok text) :
    FirstOf (envelope.vectorDefects ++ envelope.textDefects) (decryptText key vector text) := by
  simp only [vectorDefects, textDefects, vectorDecoded, textDecoded, decryptText, Chaining.decrypt]
  by_cases vectorLength : vector.length = 16
  · rw [if_pos vectorLength]
    by_cases whole : text.length % 16 = 0
    · obtain ⟨result, ran⟩ :=
        Chaining.exists_run_eq Chaining.decryptBlocks keyLength vectorLength whole
      rw [ran, if_pos whole]
      exact .passes result
    · rw [Chaining.run_of_textLength keyLength vectorLength whole, if_neg whole]
      exact .fails _ []
  · rw [Chaining.run_of_keyOrVectorLength fun lengths => vectorLength lengths.2,
      if_neg vectorLength, keyLength]
    exact .fails _ _

/-- Decryption reports the first of all defects. -/
theorem decrypt_firstOf (envelope : Envelope) (password : Bytes) :
    FirstOf envelope.defects (envelope.decrypt password) := by
  rw [defects, decrypt]
  apply (checkAlgorithms_firstOf envelope).bind
  intro _ _
  apply (decodeField_firstOf "salt" envelope.salt).bind
  intro salt _
  apply (decodeField_firstOf "iv" envelope.iv).bind
  intro vector vectorDecoded
  apply (decodeField_firstOf "key" envelope.key).bind
  intro text textDecoded
  apply (deriveKey_firstOf envelope password salt).bind
  intro key derived
  exact decryptText_firstOf (length_of_deriveKey derived)
    (decodeField_eq_ok_iff.mp vectorDecoded) (decodeField_eq_ok_iff.mp textDecoded)

theorem fieldDefects_eq_nil_iff {name text : String} :
    fieldDefects name text = [] ↔ ∃ bytes, WebSafe.decode text = .ok bytes := by
  rw [fieldDefects]
  cases WebSafe.decode text with
  | ok bytes => exact ⟨fun _ => ⟨bytes, rfl⟩, fun _ => rfl⟩
  | error fault =>
      constructor
      · intro impossible
        contradiction
      · rintro ⟨bytes, impossible⟩
        contradiction

/-- Nothing is wrong with an envelope exactly when all of its parts fit. -/
theorem defects_eq_nil_iff {envelope : Envelope} :
    envelope.defects = [] ↔ ∃ salt vector text, envelope.Sound salt vector text := by
  simp only [defects, List.append_eq_nil_iff, fieldDefects_eq_nil_iff]
  constructor
  · rintro ⟨⟨cipher, hmac⟩, ⟨salt, saltDecoded⟩, ⟨vector, vectorDecoded⟩, ⟨text, textDecoded⟩,
      iterations, vectorFits, textFits⟩
    simp only [cipherDefects, hmacDefects, iterationDefects, vectorDefects, textDefects,
      vectorDecoded, textDecoded, ite_eq_left_iff, reduceCtorEq, imp_false, Decidable.not_not]
      at cipher hmac iterations vectorFits textFits
    exact ⟨salt, vector, text, cipher, hmac, saltDecoded, vectorDecoded, textDecoded, iterations,
      vectorFits, textFits⟩
  · rintro ⟨salt, vector, text, sound⟩
    refine ⟨⟨if_pos sound.cipher, if_pos sound.hmac⟩, ⟨salt, sound.saltDecoded⟩,
      ⟨vector, sound.vectorDecoded⟩, ⟨text, sound.textDecoded⟩, if_pos sound.iterations, ?_, ?_⟩
    · simp only [vectorDefects, sound.vectorDecoded, if_pos sound.vectorLength]
    · simp only [textDefects, sound.textDecoded, if_pos sound.textLength]

theorem decrypt_of_sound {envelope : Envelope} {salt vector text : Bytes}
    (sound : envelope.Sound salt vector text) (password : Bytes) :
    ∃ key plaintext,
      PasswordKey.derive? password salt envelope.iterationCount = some key ∧
        Chaining.decrypt key vector text = .ok plaintext ∧
          envelope.decrypt password = .ok plaintext := by
  obtain ⟨key, derived, derivedKey, keyLength⟩ :=
    exists_deriveKey_eq password salt (toNat_pos_iff.mp sound.iterations)
  obtain ⟨plaintext, decrypted⟩ :=
    Chaining.exists_run_eq Chaining.decryptBlocks keyLength sound.vectorLength sound.textLength
  refine ⟨key, plaintext, derived, decrypted, ?_⟩
  simp only [decrypt, checkAlgorithms_eq_ok sound.cipher sound.hmac, decodeField, sound.saltDecoded,
    sound.vectorDecoded, sound.textDecoded, derivedKey, decryptText, Chaining.decrypt, decrypted,
    bind, Except.bind]

theorem decrypt_eq_ok_iff {envelope : Envelope} {password plaintext : Bytes} :
    envelope.decrypt password = .ok plaintext ↔
      ∃ salt vector text key, envelope.Sound salt vector text ∧
        PasswordKey.derive? password salt envelope.iterationCount = some key ∧
          Chaining.decrypt key vector text = .ok plaintext := by
  constructor
  · intro decrypted
    have noDefects := (envelope.decrypt_firstOf password).exists_ok_iff.mp ⟨plaintext, decrypted⟩
    obtain ⟨salt, vector, text, sound⟩ := defects_eq_nil_iff.mp noDefects
    obtain ⟨key, found, derived, chained, result⟩ := decrypt_of_sound sound password
    rw [decrypted] at result
    rw [← Except.ok.inj result] at chained
    exact ⟨salt, vector, text, key, sound, derived, chained⟩
  · rintro ⟨salt, vector, text, key, sound, derived, chained⟩
    obtain ⟨other, found, otherDerived, otherChained, result⟩ := decrypt_of_sound sound password
    rw [derived] at otherDerived
    rw [← Option.some.inj otherDerived, chained] at otherChained
    rw [result, Except.ok.inj otherChained]

/-- An envelope is decrypted exactly when all of its parts fit, and then to a byte string as long as
its encrypted text. Otherwise the first of its defects is reported, and a check of the algorithms
alone reports the same one if it reports any. -/
theorem decrypt_succeeds_or_reports_first_defect (envelope : Envelope) (password : Bytes) :
    ((∃ plaintext, envelope.decrypt password = .ok plaintext) ↔
        ∃ salt vector text, envelope.Sound salt vector text) ∧
      (∀ plaintext, envelope.decrypt password = .ok plaintext →
        ∃ salt vector text key, envelope.Sound salt vector text ∧
          PasswordKey.derive? password salt envelope.iterationCount = some key ∧
          Chaining.decrypt key vector text = .ok plaintext ∧
          Chaining.encrypt key vector plaintext = .ok text ∧
          plaintext.length = text.length) ∧
      (∀ fault, envelope.decrypt password = .error fault ↔ envelope.defects.head? = some fault) ∧
      (envelope.checkAlgorithms = .ok () ↔
        envelope.cipher = "AES128" ∧ envelope.hmac = "HMAC_SHA1") ∧
      (∀ fault, envelope.checkAlgorithms = .error fault →
        envelope.decrypt password = .error fault) := by
  have reported := envelope.decrypt_firstOf password
  refine ⟨?_, ?_, reported.error_iff, ?_, ?_⟩
  · rw [reported.exists_ok_iff]
    exact defects_eq_nil_iff
  · intro plaintext decrypted
    obtain ⟨salt, vector, text, key, sound, derived, chained⟩ := decrypt_eq_ok_iff.mp decrypted
    exact ⟨salt, vector, text, key, sound, derived, chained,
      Chaining.decrypt_eq_ok_iff.mp chained, Chaining.length_of_decrypt chained⟩
  · constructor
    · intro passed
      have noDefects := envelope.checkAlgorithms_firstOf.exists_ok_iff.mp ⟨(), passed⟩
      simp only [cipherDefects, hmacDefects, List.append_eq_nil_iff, ite_eq_left_iff,
        reduceCtorEq, imp_false, Decidable.not_not] at noDefects
      exact noDefects
    · rintro ⟨cipher, hmac⟩
      exact checkAlgorithms_eq_ok cipher hmac
  · intro fault refused
    rw [decrypt, refused]
    rfl

end Envelope

end KeyStore
