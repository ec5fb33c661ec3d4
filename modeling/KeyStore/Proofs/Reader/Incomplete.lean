import KeyStore.Proofs.Json.Objects
import KeyStore.Proofs.Reader.Protected

/-!
# Envelopes that lack members

Members that an envelope lacks are blank. A blank cipher, blank digest, zero iterations and a blank
initialization vector are refused; a blank salt is a salt like any other, and a blank encrypted text
has the empty plaintext.
-/

namespace KeyStore

open Json

namespace Envelope

def Has (name : String) (members : List (Option String × List Char)) : Prop :=
  some name ∈ members.map Prod.fst

theorem parseEnvelope_eq_ok_iff {stored : String} {envelope : Envelope} :
    parseEnvelope stored = .ok envelope ↔
      (Recorded.shape Envelope).parse stored = .ok (Recorded.toDatum envelope) := by
  rw [← Recorded.parse_eq_ok_iff, parseEnvelope]
  cases Recorded.parse Envelope stored with
  | error fault => simp
  | ok found => simp

theorem blank_of_not_has {stored : String} {envelope : Envelope}
    {members : List (Option String × List Char)} (object : ObjectText members stored.toList)
    (parsed : parseEnvelope stored = .ok envelope) :
    (¬Has "cipher" members → envelope.cipher = "") ∧
    (¬Has "hmac" members → envelope.hmac = "") ∧
    (¬Has "iterationCount" members → envelope.iterationCount = 0) ∧
    (¬Has "iv" members → envelope.iv = "") ∧
    (¬Has "key" members → envelope.key = "") ∧
    (¬Has "salt" members → envelope.salt = "") := by
  rw [parseEnvelope_eq_ok_iff, ← @String.ofList_toList stored] at parsed
  obtain ⟨named, rfl, cipher, hmac, iterationCount, vector, text, salt, _⟩ :=
    (object.parse_eq_ok_iff isFaithful_fields).mp parsed
  have absentName {name : String} (absent : ¬Has name (listed named)) :
      valuesNamed name named = [] := by
    rw [valuesNamed_eq_nil_iff]
    intro member
    obtain ⟨found, isMember, rfl⟩ := List.mem_map.mp member
    refine absent (List.mem_map.mpr ⟨(some found.1, found.2), ?_, rfl⟩)
    exact List.mem_map.mpr ⟨found, isMember, rfl⟩
  have blank {name : String} {shape : Shape} {value : shape.Datum}
      (given : shape.GivenBy true (valuesNamed name named) value)
      (absent : ¬Has name (listed named)) : shape.blank? = some value := by
    rw [absentName absent] at given
    exact given.2
  refine ⟨?_, ?_, ?_, ?_, ?_, ?_⟩
  · intro absent
    exact (Option.some.inj (blank cipher absent)).symm
  · intro absent
    exact (Option.some.inj (blank hmac absent)).symm
  · intro absent
    have zero := Option.some.inj (blank iterationCount absent)
    exact congrArg UInt32.ofFin zero.symm
  · intro absent
    exact (Option.some.inj (blank vector absent)).symm
  · intro absent
    exact (Option.some.inj (blank text absent)).symm
  · intro absent
    exact (Option.some.inj (blank salt absent)).symm

/-- A text with some of the members of an envelope stands for the envelope whose other members are
blank. -/
theorem parse_present {values : fields.Partial} {datum : fields.Data}
    (complete : fields.complete true values = .ok datum) :
    parseEnvelope (String.ofList (writeObject (fields.presentMembers values))) =
      .ok (Recorded.ofDatum datum) := by
  have parsed : (Recorded.shape Envelope).parse
      (String.ofList (writeObject (fields.presentMembers values))) = .ok datum :=
    Shape.parse_writeObject isFaithful_fields complete
  rw [parseEnvelope, Recorded.parse, parsed]

theorem objectText_present (values : fields.Partial) :
    ObjectText (listed (fields.presentMembers values))
      (String.ofList (writeObject (fields.presentMembers values))).toList := by
  rw [String.toList_ofList]
  exact objectText_writeObject (fields.value_presentMembers values)

/-- An envelope whose parts fit has every member but the salt and the encrypted text. -/
theorem has_of_sound {stored : String} {envelope : Envelope}
    {members : List (Option String × List Char)} (object : ObjectText members stored.toList)
    (parsed : parseEnvelope stored = .ok envelope) {salt vector text : Bytes}
    (sound : envelope.Sound salt vector text) :
    (Has "cipher" members ∧ Has "hmac" members ∧ Has "iterationCount" members ∧
        Has "iv" members) ∧
      (¬Has "salt" members → salt = []) ∧ (¬Has "key" members → text = []) := by
  obtain ⟨noCipher, noHmac, noIterations, noVector, noText, noSalt⟩ :=
    blank_of_not_has object parsed
  have blankDecoded : WebSafe.decode "" = .ok [] := WebSafe.decode_encode []
  refine ⟨⟨?_, ?_, ?_, ?_⟩, ?_, ?_⟩
  · by_contra absent
    have named := sound.cipher
    rw [noCipher absent] at named
    contradiction
  · by_contra absent
    have named := sound.hmac
    rw [noHmac absent] at named
    contradiction
  · by_contra absent
    have positive := sound.iterations
    rw [noIterations absent] at positive
    contradiction
  · by_contra absent
    have decoded := sound.vectorDecoded
    rw [noVector absent, blankDecoded] at decoded
    have length := sound.vectorLength
    rw [← Except.ok.inj decoded] at length
    contradiction
  · intro absent
    have decoded := sound.saltDecoded
    rw [noSalt absent, blankDecoded] at decoded
    exact (Except.ok.inj decoded).symm
  · intro absent
    have decoded := sound.textDecoded
    rw [noText absent, blankDecoded] at decoded
    exact (Except.ok.inj decoded).symm

end Envelope

namespace Reader

open Envelope

theorem decryptedText_eq_ok_iff {bytes : Bytes} {text : String} :
    decryptedText bytes = .ok text ↔ bytes = Utf8.encode text := by
  rcases decryptedText_cases bytes with noText | ⟨found, isText, encoded⟩
  · rw [noText]
    constructor
    · intro impossible
      contradiction
    · intro encoded
      rw [encoded, decryptedText, Utf8.decode?_encode] at noText
      contradiction
  · rw [isText, ← encoded]
    constructor
    · intro equality
      rw [Except.ok.inj equality]
    · intro equality
      rw [Utf8.encode_injective equality]

/-- A version that holds a JSON object is opened exactly when the object has a cipher, a digest, a
number of iterations and an initialization vector, and all parts of the envelope fit. A salt that is
missing is the empty one, and if the encrypted text is missing the key is empty. -/
theorem key_of_object_eq_ok_iff {files : FileAccess} {inner : Reader} {version : UInt32}
    {stored : String} {members : List (Option String × List Char)}
    (read : (inner.key files version).outcome = .ok stored)
    (object : ObjectText members stored.toList) (password : Bytes) (text : String) :
    ((passwordProtected inner password).key files version).outcome = .ok text ↔
      (Has "cipher" members ∧ Has "hmac" members ∧ Has "iterationCount" members ∧
        Has "iv" members) ∧
      ∃ envelope salt vector ciphertext key,
        parseEnvelope stored = .ok envelope ∧ envelope.Sound salt vector ciphertext ∧
        PasswordKey.derive? password salt envelope.iterationCount = some key ∧
        Chaining.decrypt key vector ciphertext = .ok (Utf8.encode text) ∧
        (¬Has "salt" members → salt = []) ∧
        (¬Has "key" members → ciphertext = [] ∧ text = "") := by
  rw [key_of_inner_text read]
  constructor
  · intro opened
    rcases openProtected_cases version stored with ⟨_, _, failed⟩ | ⟨_, _, _, _, failed⟩ |
      ⟨envelope, _, _, _, parsed, _, succeeded⟩
    · rw [failed] at opened
      contradiction
    · rw [failed] at opened
      contradiction
    · obtain ⟨plaintext, decrypted, _, equality⟩ := succeeded password
      rw [equality] at opened
      rw [decryptedText_eq_ok_iff.mp opened] at decrypted
      obtain ⟨salt, vector, ciphertext, key, sound, derived, chained⟩ :=
        decrypt_eq_ok_iff.mp decrypted
      obtain ⟨has, noSalt, noText⟩ := has_of_sound object parsed sound
      refine ⟨has, envelope, salt, vector, ciphertext, key, parsed, sound, derived, chained,
        noSalt, fun absent => ⟨noText absent, ?_⟩⟩
      have length := Chaining.length_of_decrypt chained
      rw [noText absent] at length
      exact Utf8.encode_injective (List.eq_nil_of_length_eq_zero length)
  · rintro ⟨_, envelope, salt, vector, ciphertext, key, parsed, sound, derived, decrypted, _⟩
    have plaintext := decrypt_eq_ok_iff.mpr
      ⟨salt, vector, ciphertext, key, sound, derived, decrypted⟩
    rw [openProtected_of_plaintext parsed plaintext]
    exact decryptedText_eq_ok_iff.mpr rfl

/-- An envelope without a salt that is opened. -/
theorem key_of_object_without_salt :
    ∃ (files : FileAccess) (inner : Reader) (stored : String)
      (members : List (Option String × List Char)),
      (inner.key files 1).outcome = .ok stored ∧ ObjectText members stored.toList ∧
        ¬Has "salt" members ∧
        ((passwordProtected inner (Utf8.encode "cleartext")).key files 1).outcome =
          .ok "0123456789abcdef" := by
  have whole : (Utf8.encode "0123456789abcdef").length % 16 = 0 := by
    decide +kernel
  have vectorLength : (List.replicate 16 (0 : UInt8)).length = 16 := List.length_replicate
  obtain ⟨key, derived, _, keyLength⟩ :=
    exists_deriveKey_eq (Utf8.encode "cleartext") [] (show (1000 : UInt32) ≠ 0 by decide)
  obtain ⟨ciphertext, encrypted⟩ :=
    Chaining.exists_run_eq Chaining.encryptBlocks keyLength vectorLength whole
  have decrypted := Chaining.decrypt_eq_ok_iff.mpr encrypted
  have ciphertextLength : ciphertext.length % 16 = 0 := by
    rw [← Chaining.length_of_decrypt decrypted]
    exact whole
  let values : fields.Partial :=
    (some "AES128", some "HMAC_SHA1", some (UInt32.toFin 1000),
      some (WebSafe.encode (List.replicate 16 0)), some (WebSafe.encode ciphertext), none, ())
  have parsed := parse_present (show fields.complete true values = .ok
    ("AES128", "HMAC_SHA1", UInt32.toFin 1000, WebSafe.encode (List.replicate 16 0),
      WebSafe.encode ciphertext, "", ()) from rfl)
  have read := @key_directory_of_file
    (fun _ => .ok (Utf8.encode (String.ofList (writeObject (fields.presentMembers values))))) 1
    (.ofPath "store") _ rfl
  have object := objectText_present values
  have names : (listed (fields.presentMembers values)).map Prod.fst =
      [some "cipher", some "hmac", some "iterationCount", some "iv", some "key"] := rfl
  refine ⟨_, _, _, _, read, object, ?_, ?_⟩
  · rw [Has, names]
    decide
  · refine (key_of_object_eq_ok_iff read object _ _).mpr ⟨?_, _, [], List.replicate 16 0,
      ciphertext, key, parsed, ?_, derived, decrypted, fun _ => rfl, ?_⟩
    · simp only [Has, names]
      decide
    · exact ⟨rfl, rfl, WebSafe.decode_encode [], WebSafe.decode_encode _,
        WebSafe.decode_encode ciphertext, (show 1 ≤ (1000 : UInt32).toNat by decide), vectorLength,
        ciphertextLength⟩
    · intro absent
      rw [Has, names] at absent
      exact absurd (by decide) absent

end Reader

end KeyStore
