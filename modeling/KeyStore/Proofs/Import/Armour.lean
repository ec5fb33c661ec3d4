import KeyStore.Proofs.Import.CanonicalPublicKey

/-!
# Loading keys through their armour

What is loaded from a file depends on the bytes of its first block alone. Tag, line width and line
ends of the block, the lines in front of it and all that follows it change nothing, and what goes
wrong then lies in the bytes: in their structure, in the algorithm or in the key.
-/

namespace KeyStore

namespace Pem

/-- The text of a file that holds nothing but a block with its data on one line. -/
def oneLine (tag : List Char) (contents : Bytes) : String :=
  String.ofList (beginMarker ++ tag ++ closeMarker ++ ['\n'] ++ symbols contents ++ ['\n'] ++
    endMarker ++ tag ++ closeMarker ++ ['\n'])

theorem cutLines_of_length_le {width : Nat} {text : List Char} (lineEnd : LineEnd)
    (filled : text ≠ []) (short : text.length ≤ width + 1) :
    cutLines width lineEnd text = text ++ lineEnd.chars := by
  cases text with
  | nil => contradiction
  | cons char rest =>
      have fits : rest.length ≤ width := Nat.le_of_succ_le_succ short
      rw [cutLines, List.take_of_length_le fits, List.drop_of_length_le fits, cutLines,
        List.append_nil]

theorem symbols_ne_nil {contents : Bytes} (filled : contents ≠ []) : symbols contents ≠ [] :=
  List.map_eq_nil_iff.not.mpr (Base64.encode_ne_nil .required filled)

/-- A block on one line is laid out in lines that are long enough. -/
theorem exists_openText_eq_oneLine {tag : List Char} (nonempty : tag ≠ []) (noDash : '-' ∉ tag)
    {contents : Bytes} (filled : contents ≠ []) :
    ∃ layout : Layout, layout.openText contents = oneLine tag contents := by
  let layout : Layout :=
    { Layout.alone tag nonempty noDash with
      width := (symbols contents).length
      after := ['\n'] }
  have line : cutLines layout.width layout.lineEnd (symbols contents) =
      symbols contents ++ ['\n'] :=
    cutLines_of_length_le .lf (symbols_ne_nil filled) (Nat.le_succ _)
  refine ⟨layout, ?_⟩
  rw [Layout.openText, Layout.block, line, oneLine]
  simp only [layout, Layout.alone, LineEnd.chars, List.nil_append, List.append_assoc]

end Pem

/-- What loading a private key, a public key, and the key of a certificate make of the same file. -/
structure LoadedKeys where
  privateKey : Except StoreFault Rsa.PrivateKey
  publicKey : Except StoreFault Rsa.PublicKey
  certifiedKey : Except StoreFault Rsa.PublicKey

namespace LoadedKeys

def ofFile (files : FileAccess) (path : String) : LoadedKeys where
  privateKey := (loadPrivateKey files path).outcome
  publicKey := (loadPublicKey files path).outcome
  certifiedKey := (loadCertifiedKey files path).outcome

def ofContents (contents : Bytes) : LoadedKeys where
  privateKey := decodePrivateKey contents
  publicKey := decodePublicKey contents
  certifiedKey := decodeCertifiedKey contents

def EndIn (keys : LoadedKeys) (fault : StoreFault) : Prop :=
  keys.privateKey = .error fault ∨ keys.publicKey = .error fault ∨
    keys.certifiedKey = .error fault

end LoadedKeys

/-- The fault lies in the bytes of a block. -/
inductive StoreFault.IsOfContents : StoreFault → Prop
  | der : IsOfContents .der
  | rsa (fault : Rsa.Fault) : IsOfContents (.rsa fault)
  | notRsa (algorithm : Der.ObjectId) : IsOfContents (.notRsa algorithm)

open StoreFault (IsOfContents)

theorem isOfContents_of_decodePrivateKey {contents : Bytes} {fault : StoreFault}
    (failed : decodePrivateKey contents = .error fault) : IsOfContents fault := by
  rw [decodePrivateKey] at failed
  split at failed
  · contradiction
  · obtain rfl := Except.error.inj failed
    exact .rsa _

theorem isOfContents_of_rsaKey {info : Der.PublicKeyInfo} {fault : StoreFault}
    (failed : rsaKey info = .error fault) : IsOfContents fault := by
  rw [rsaKey] at failed
  split at failed
  · obtain rfl := Except.error.inj failed
    exact .notRsa _
  · split at failed
    · contradiction
    · obtain rfl := Except.error.inj failed
      exact .rsa _

theorem isOfContents_of_rsaKeyOf (found : Option Der.PublicKeyInfo) {fault : StoreFault}
    (failed : rsaKeyOf found = .error fault) : IsOfContents fault := by
  cases found with
  | none =>
      obtain rfl := Except.error.inj failed
      exact .der
  | some info => exact isOfContents_of_rsaKey failed

namespace LoadedKeys

theorem isOfContents_of_endIn {contents : Bytes} {fault : StoreFault}
    (ends : (ofContents contents).EndIn fault) : IsOfContents fault := by
  rcases ends with failed | failed | failed
  · exact isOfContents_of_decodePrivateKey failed
  · exact isOfContents_of_rsaKeyOf (Der.PublicKeyInfo.decode? contents) failed
  · exact isOfContents_of_rsaKeyOf (Der.certifiedKey? contents) failed

theorem ofFile_eq_of_readBlock {files : FileAccess} {path : String} {contents : Bytes}
    (block : (readBlock files path).outcome = .ok contents) :
    ofFile files path = ofContents contents := by
  simp only [ofFile, ofContents, loadPrivateKey, loadPublicKey, loadCertifiedKey,
    Log.Traced.outcome_bind, block, Except.bind, Log.Traced.outcome_ofOutcome]

theorem ofFile_eq_ofContents {files : FileAccess} {path : String} {contents : Bytes}
    (layout : Pem.Layout) (file : files path = .ok (Utf8.encode (layout.openText contents))) :
    ofFile files path = ofContents contents := by
  have first : files.FirstBlock path ⟨String.ofList layout.tag, contents⟩ :=
    ⟨_, file, layout.parse_openText contents⟩
  apply ofFile_eq_of_readBlock
  rw [readBlock_of_firstBlock first]

/-- Every file that holds a byte string in its first block is loaded like the file that holds
nothing but this block on one line, whatever its tag is. What is loaded is a function of the bytes,
and so is each fault. -/
theorem armour_is_transparent (layout : Pem.Layout) {tag : List Char} (nonempty : tag ≠ [])
    (noDash : '-' ∉ tag) {contents : Bytes} (filled : contents ≠ [])
    {files plainFiles : FileAccess} {path plainPath : String}
    (file : files path = .ok (Utf8.encode (layout.openText contents)))
    (plain : plainFiles plainPath = .ok (Utf8.encode (Pem.oneLine tag contents))) :
    ofFile files path = ofFile plainFiles plainPath ∧
      ofFile files path = ofContents contents ∧
      ∀ fault, (ofFile files path).EndIn fault → IsOfContents fault := by
  obtain ⟨plainLayout, oneLine⟩ := Pem.exists_openText_eq_oneLine nonempty noDash filled
  rw [← oneLine] at plain
  have loaded := ofFile_eq_ofContents layout file
  refine ⟨loaded.trans (ofFile_eq_ofContents plainLayout plain).symm, loaded, ?_⟩
  intro fault ends
  rw [loaded] at ends
  exact isOfContents_of_endIn ends

/-- A layout with a line in front, one character a line, and another block right behind. -/
def narrowLayout : Pem.Layout where
  before := ['-', '-', '-', '-', '-', 'B', 'E', 'G', 'I', 'N', '\n']
  tag := ['A', ' ', 'K', 'E', 'Y']
  width := 0
  lineEnd := .crlf
  after := Pem.beginMarker ++ ['B']
  before_lines := .inr ⟨['-', '-', '-', '-', '-', 'B', 'E', 'G', 'I', 'N'], rfl⟩
  before_noMarker := by decide +kernel
  tag_nonempty := by decide
  tag_noDash := by decide

theorem armour_of_fifteen_is_transparent :
    let contents := payloadOfFifteen 0
    let narrow := FileAccess.single "a" (Utf8.encode (narrowLayout.openText contents))
    let plain := FileAccess.single "b" (Utf8.encode (Pem.oneLine ['B'] contents))
    ['B'] ≠ [] ∧ '-' ∉ ['B'] ∧ contents ≠ [] ∧
      narrow "a" = .ok (Utf8.encode (narrowLayout.openText contents)) ∧
      plain "b" = .ok (Utf8.encode (Pem.oneLine ['B'] contents)) ∧
      ofFile narrow "a" = ofFile plain "b" ∧ (ofFile narrow "a").publicKey = .ok keyOfFifteen := by
  intro contents narrow plain
  have filled : contents ≠ [] := List.cons_ne_nil _ _
  have file : narrow "a" = .ok (Utf8.encode (narrowLayout.openText contents)) :=
    FileAccess.single_same "a" _
  have plainFile : plain "b" = .ok (Utf8.encode (Pem.oneLine ['B'] contents)) :=
    FileAccess.single_same "b" _
  have decoded : decodePublicKey contents = .ok keyOfFifteen := by
    rw [← outcome_loadPublicKey_of_readBlock (readBlock_payloadOfFifteen 0)]
    exact loadPublicKey_payloadOfFifteen (by decide)
  obtain ⟨same, loaded, _⟩ :=
    armour_is_transparent narrowLayout (by decide) (by decide) filled file plainFile
  refine ⟨by decide, by decide, filled, file, plainFile, same, ?_⟩
  rw [loaded]
  exact decoded

end LoadedKeys

end KeyStore
