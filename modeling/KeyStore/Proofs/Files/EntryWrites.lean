import KeyStore.Proofs.Files.StorePaths
import KeyStore.Proofs.Session.Snapshots

/-!
# Independent entries

The entries of a store are the metadata and one for each version. Each answers with what was written
to it last, as text or as a fault of its own, and no write to one of them changes what another
answers. A store may be named with or without slashes behind its path; only where paths become too
long does a slash more make a difference.
-/

namespace KeyStore

inductive StoreEntry where
  | metadata
  | version (number : UInt32)
deriving DecidableEq

namespace StoreEntry

def name : StoreEntry → String
  | .metadata => StoreLocation.metadataName
  | .version number => toString number

theorem isFileName_name (entry : StoreEntry) : IsFileName entry.name := by
  cases entry with
  | metadata => exact isFileName_metadata
  | version number => exact isFileName_version number

theorem eq_of_toString_eq {number other : UInt32} (same : toString number = toString other) :
    number = other := by
  have digits : Nat.toDigits 10 number.toNat = Nat.toDigits 10 other.toNat :=
    String.ofList_injective same
  apply UInt32.toNat_inj.mp
  rw [← Nat.ofDigitChars_ten_toDigits (n := number.toNat), digits, Nat.ofDigitChars_ten_toDigits]

theorem name_injective : Function.Injective name := by
  intro entry other same
  cases entry with
  | metadata =>
      cases other with
      | metadata => rfl
      | version number => exact absurd same (metadataName_ne_version number)
  | version number =>
      cases other with
      | metadata => exact absurd same.symm (metadataName_ne_version number)
      | version otherNumber => rw [eq_of_toString_eq same]

end StoreEntry

def StoreLocation.entryPath (location : StoreLocation) (entry : StoreEntry) : String :=
  location.text ++ entry.name

def Reader.answer (files : FileAccess) (reader : Reader) : StoreEntry → Except StoreFault String
  | .metadata => (reader.metadata files).outcome
  | .version number => (reader.key files number).outcome

theorem Reader.answer_version (files : FileAccess) (reader : Reader) (number : UInt32) :
    reader.answer files (.version number) = (reader.key files number).outcome :=
  rfl

theorem Reader.answer_directory (files : FileAccess) (location : StoreLocation)
    (entry : StoreEntry) :
    (directory location).answer files entry = files.textAt (location.entryPath entry) := by
  cases entry with
  | metadata => exact outcome_readEntry_eq files _
  | version number => exact outcome_readEntry_eq files _

section Texts

variable {files other : FileAccess} {path : String} {contents : Bytes}

theorem textAt_congr (same : other path = files path) : other.textAt path = files.textAt path := by
  rw [FileAccess.textAt, FileAccess.textAt, FileAccess.readText, FileAccess.readText, same]

theorem textAt_eq_ok_iff {text : String} :
    files.textAt path = .ok text ↔ files path = .ok (Utf8.encode text) := by
  rw [← readText_eq_ok_iff, FileAccess.textAt]
  cases files.readText path with
  | ok other => simp only [Except.mapError, Except.ok.injEq]
  | error fault => simp only [Except.mapError, reduceCtorEq]

theorem textAt_of_notText (file : files path = .ok contents)
    (notText : Utf8.decode? contents = none) :
    files.textAt path = .error (.file path .notText) := by
  rw [FileAccess.textAt, FileAccess.readText, file]
  simp only [FileFault.textOf, notText]
  rfl

end Texts

/-- What was written to an entry last. -/
def latest? (entry : StoreEntry) (writes : List (StoreEntry × Bytes)) : Option Bytes :=
  writes.reverse.lookup entry

theorem latest?_cons (entry : StoreEntry) (first : StoreEntry × Bytes)
    (writes : List (StoreEntry × Bytes)) :
    latest? entry (first :: writes) =
      (latest? entry writes).or (if first.1 = entry then some first.2 else none) := by
  rw [latest?, List.reverse_cons, List.lookup_append, ← latest?]
  congr 1
  rcases first with ⟨other, contents⟩
  by_cases same : other = entry
  · rw [if_pos same, same, List.lookup_cons_self]
  · rw [if_neg same, List.lookup_cons, beq_false_of_ne (Ne.symm same)]
    rfl

namespace StoreLocation

/-- Between two views of the files the entries of a store have been written one after the other, and
nothing else has happened to them. -/
def HasWritten (location : StoreLocation) (files written : FileAccess)
    (writes : List (StoreEntry × Bytes)) : Prop :=
  ∀ entry, written (location.entryPath entry) =
    match latest? entry writes with
    | some contents => .ok contents
    | none => files (location.entryPath entry)

/-- How a store answers once its entries have been written one after the other. -/
structure AnswersAfter (location : StoreLocation) (files written : FileAccess)
    (writes : List (StoreEntry × Bytes)) : Prop where
  text : ∀ entry text, latest? entry writes = some (Utf8.encode text) →
    (Reader.directory location).answer written entry = .ok text
  notText : ∀ entry contents, latest? entry writes = some contents →
    Utf8.decode? contents = none →
    ∃ fault, (Reader.directory location).answer written entry = .error fault ∧
      fault.kind = .file
  other : ∀ entry, latest? entry writes = none →
    (Reader.directory location).answer written entry =
      (Reader.directory location).answer files entry

theorem HasWritten.answersAfter {location : StoreLocation} {files written : FileAccess}
    {writes : List (StoreEntry × Bytes)} (hasWritten : location.HasWritten files written writes) :
    location.AnswersAfter files written writes where
  text entry text latest := by
    have file := hasWritten entry
    rw [latest] at file
    rw [Reader.answer_directory, textAt_eq_ok_iff.mpr file]
  notText entry contents latest notText := by
    have file := hasWritten entry
    rw [latest] at file
    exact ⟨_, by rw [Reader.answer_directory, textAt_of_notText file notText], rfl⟩
  other entry latest := by
    have file := hasWritten entry
    rw [latest] at file
    rw [Reader.answer_directory, Reader.answer_directory, textAt_congr file]

def writeAll (location : StoreLocation) (tree : FileTree)
    (writes : List (StoreEntry × Bytes)) : FileTree :=
  writes.foldl (fun tree write => tree.write (location.entryPath write.1) write.2) tree

variable {location : StoreLocation} {tree : FileTree}

theorem HasPlaces.hasWritten {directory : List String} {writes : List (StoreEntry × Bytes)}
    (places : location.HasPlaces tree directory)
    (admitted : ∀ write ∈ writes, tree.Admits (location.entryPath write.1)) :
    location.HasWritten tree.access (location.writeAll tree writes).access writes := by
  induction writes generalizing tree with
  | nil =>
      intro entry
      rfl
  | cons first writes inductionHypothesis =>
      rcases first with ⟨entry, contents⟩
      have isName := entry.isFileName_name
      have firstAdmitted : tree.Admits (location.entryPath entry) :=
        admitted _ List.mem_cons_self
      have stillAdmitted (write : StoreEntry × Bytes) (member : write ∈ writes) :
          (tree.write (location.entryPath entry) contents).Admits
            (location.entryPath write.1) :=
        places.admits_write isName firstAdmitted contents write.1.isFileName_name
          (admitted write (List.mem_cons_of_mem _ member))
      have later :=
        inductionHypothesis (places.write isName firstAdmitted contents) stillAdmitted
      intro other
      rw [latest?_cons]
      refine (later other).trans ?_
      cases latest? other writes with
      | some contents => rfl
      | none =>
          rw [Option.none_or]
          by_cases same : entry = other
          · rw [if_pos same, ← same]
            exact places.access_write isName firstAdmitted contents
          · rw [if_neg same]
            exact places.access_write_other isName firstAdmitted contents other.isFileName_name
              fun sameName => same (StoreEntry.name_injective sameName).symm

theorem hasWritten_of_hasDirectory {path : String} {writes : List (StoreEntry × Bytes)}
    (store : tree.HasDirectory path)
    (admitted : ∀ write ∈ writes, tree.Admits ((ofPath path).entryPath write.1)) :
    (ofPath path).HasWritten tree.access ((ofPath path).writeAll tree writes).access writes := by
  cases writes with
  | nil =>
      intro entry
      rfl
  | cons first writes =>
      -- The path of an entry that is written is short, and so is the one in front of its name.
      have short : (ofPath path).text.utf8ByteSize ≤ FileTree.maxPathLength := by
        have entryShort := (admitted first List.mem_cons_self).1
        rw [entryPath, String.utf8ByteSize_append] at entryShort
        omega
      obtain ⟨directory, places⟩ := (isDirectoryOf_of_hasDirectory store short).exists_places
      exact places.hasWritten admitted

theorem ofPath_slash {path : String} (notStem : ¬IsEntryStem path) :
    ofPath (path ++ "/") = ofPath path := by
  rw [← text_ofPath_of_not_stem notStem, ofPath_text]

theorem answer_slash {path : String} (filled : path ≠ "") (tree : FileTree) {entry : StoreEntry}
    (short : IsEntryStem path →
      ((ofPath (path ++ "/")).entryPath entry).utf8ByteSize ≤ FileTree.maxPathLength)
    (text : String) :
    (Reader.directory (ofPath (path ++ "/"))).answer tree.access entry = .ok text ↔
      (Reader.directory (ofPath path)).answer tree.access entry = .ok text := by
  by_cases stem : IsEntryStem path
  · have slash : path.toList.getLast? = some '/' := stem.resolve_left filled
    have longerStem : IsEntryStem (path ++ "/") := .inr (by simp)
    have shortPath := short stem
    rw [entryPath, text_ofPath_of_stem longerStem] at shortPath
    rw [Reader.answer_directory, Reader.answer_directory, textAt_eq_ok_iff, textAt_eq_ok_iff,
      entryPath, entryPath, text_ofPath_of_stem stem, text_ofPath_of_stem longerStem,
      FileTree.access, FileTree.access,
      FileTree.find_slash tree slash entry.isFileName_name.noSlash shortPath]
  · rw [ofPath_slash stem]

theorem exists_answer_error_of_long {location : StoreLocation} (tree : FileTree)
    {entry : StoreEntry}
    (long : FileTree.maxPathLength < (location.entryPath entry).utf8ByteSize) :
    ∃ fault, (Reader.directory location).answer tree.access entry = .error fault ∧
      fault.kind = .file := by
  have refused : ∃ fault, tree.find (location.entryPath entry) = .error fault := by
    rw [FileTree.find, if_pos long]
    split
    · exact ⟨_, rfl⟩
    · exact ⟨_, rfl⟩
  obtain ⟨fault, failed⟩ := refused
  refine ⟨.file (location.entryPath entry) fault, ?_, rfl⟩
  rw [Reader.answer_directory, FileAccess.textAt, FileAccess.readText, FileTree.access, failed]
  rfl

def slashed : (more : Nat) → String
  | 0 => "./"
  | more + 1 => slashed more ++ "/"

theorem slashed_succ (more : Nat) : slashed (more + 1) = slashed more ++ "/" :=
  rfl

theorem utf8ByteSize_slashed (more : Nat) : (slashed more).utf8ByteSize = more + 2 := by
  induction more with
  | zero => decide
  | succ more inductionHypothesis =>
      rw [slashed_succ, String.utf8ByteSize_append, inductionHypothesis]
      rfl

theorem slashed_ne_empty (more : Nat) : slashed more ≠ "" := by
  intro empty
  have size := utf8ByteSize_slashed more
  rw [empty] at size
  contradiction

theorem isEntryStem_slashed (more : Nat) : IsEntryStem (slashed more) := by
  cases more with
  | zero => exact .inr (by decide)
  | succ more => exact .inr (by simp [slashed])

theorem utf8ByteSize_entryPath_slashed (more : Nat) (entry : StoreEntry) :
    ((ofPath (slashed more)).entryPath entry).utf8ByteSize =
      more + 2 + entry.name.utf8ByteSize := by
  rw [entryPath, text_ofPath_of_stem (isEntryStem_slashed more), String.utf8ByteSize_append,
    utf8ByteSize_slashed]

/-- As long as the path of an entry is short enough, any number of slashes changes no answer. -/
theorem answer_slashed (tree : FileTree) {entry : StoreEntry} {more : Nat}
    (short : more + 2 + entry.name.utf8ByteSize ≤ FileTree.maxPathLength) (text : String) :
    (Reader.directory (ofPath (slashed more))).answer tree.access entry = .ok text ↔
      (Reader.directory (ofPath "./")).answer tree.access entry = .ok text := by
  induction more with
  | zero => exact Iff.rfl
  | succ more inductionHypothesis =>
      have shortPath : ((ofPath (slashed (more + 1))).entryPath entry).utf8ByteSize ≤
          FileTree.maxPathLength := by
        rw [utf8ByteSize_entryPath_slashed]
        exact short
      exact (answer_slash (slashed_ne_empty more) tree (fun _ => shortPath) text).trans
        (inductionHypothesis (by omega))

/-! ## Independence -/

/-- In the store of a directory, however its path ends, each entry answers with what was written to
it last: with the text itself, or with a fault if it is not UTF-8. Entries that were not written
answer as before. The same holds of every store, wherever it is, whose entries are written without
touching each other. A place is named by its own text, and one slash more names the same place
unless a path becomes too long. -/
theorem entries_are_independent_and_verbatim (tree : FileTree) (path : String)
    (store : tree.HasDirectory path) (writes : List (StoreEntry × Bytes))
    (admitted : ∀ write ∈ writes, tree.Admits ((ofPath path).entryPath write.1)) :
    (ofPath path).AnswersAfter tree.access ((ofPath path).writeAll tree writes).access writes ∧
      (∀ location files written others, HasWritten location files written others →
        location.AnswersAfter files written others) ∧
      (∀ other, ofPath (ofPath other).text = ofPath other) ∧
      ∀ (other : FileTree) (otherPath : String) (entry : StoreEntry), otherPath ≠ "" →
        let longer := ofPath (otherPath ++ "/")
        if IsEntryStem otherPath ∧
            FileTree.maxPathLength < (longer.entryPath entry).utf8ByteSize then
          ∃ fault, (Reader.directory longer).answer other.access entry = .error fault ∧
            fault.kind = .file
        else
          ∀ text, (Reader.directory longer).answer other.access entry = .ok text ↔
            (Reader.directory (ofPath otherPath)).answer other.access entry = .ok text := by
  refine ⟨(hasWritten_of_hasDirectory store admitted).answersAfter, ?_, ?_, ?_⟩
  · intro location files written others hasWritten
    exact hasWritten.answersAfter
  · intro other
    exact ofPath_text (ofPath other)
  · intro other otherPath entry filled longer
    split
    · next long => exact exists_answer_error_of_long other long.2
    · next notLong =>
        apply answer_slash filled other
        intro stem
        exact Nat.not_lt.mp fun long => notLong ⟨stem, long⟩

theorem entries_of_written_store :
    let tree := FileTree.directory [("store", .directory [("1", .file [97])])]
    let location := ofPath "store//"
    let writes : List (StoreEntry × Bytes) :=
      [(.version 1, [98]), (.metadata, [0xff]), (.version 1, [99])]
    tree.HasDirectory "store//" ∧
      (∀ write ∈ writes, tree.Admits (location.entryPath write.1)) ∧
      ((Reader.directory location).key (location.writeAll tree writes).access 1).outcome =
        .ok "c" := by
  intro tree location writes
  have store : tree.HasDirectory "store//" :=
    { relative := by decide, inside := by decide, found := .inr (by decide +kernel) }
  have admitted : ∀ write ∈ writes, tree.Admits (location.entryPath write.1) := by
    decide +kernel
  obtain ⟨answers, _⟩ :=
    entries_are_independent_and_verbatim tree "store//" store writes admitted
  exact ⟨store, admitted, answers.text (.version 1) "c" (by decide)⟩

/-- With 4094 bytes the path of a store can still be followed by the name of a version, with one
slash more it cannot. -/
theorem one_slash_more_makes_key_unreadable :
    let tree := FileTree.directory [("1", .file [97])]
    let path := slashed 4092
    ((Reader.directory (ofPath path)).key tree.access 1).outcome = .ok "a" ∧
      ∃ fault, ((Reader.directory (ofPath (path ++ "/"))).key tree.access 1).outcome =
          .error fault ∧
        fault.kind = .file := by
  intro tree path
  have size : (StoreEntry.version 1).name.utf8ByteSize = 1 := by decide
  rw [← Reader.answer_version, ← Reader.answer_version]
  constructor
  · refine (answer_slashed tree ?_ "a").mpr (by decide +kernel)
    rw [size]
    decide
  · apply exists_answer_error_of_long tree
    rw [← slashed_succ, utf8ByteSize_entryPath_slashed, size]
    decide

end StoreLocation

end KeyStore
