import KeyStore.Proofs.Files.Writing
import KeyStore.Reader.Basic

/-!
# Entries of a store

The entries of a store that is a directory of a tree have places of their own in it. What is written
to one is read back through the store, and the others stay as they are.
-/

namespace KeyStore

namespace FileTree

def FoundDirectory : Except FileFault FileTree → Prop
  | .ok (.directory _) => True
  | .ok (.file _) | .error _ => False

instance : DecidablePred FoundDirectory
  | .ok (.directory _) => isTrue True.intro
  | .ok (.file _) => isFalse id
  | .error _ => isFalse id

theorem foundDirectory_iff {found : Except FileFault FileTree} :
    FoundDirectory found ↔ ∃ entries, found = .ok (.directory entries) := by
  constructor
  · intro isDirectory
    rcases found with fault | contents | entries
    · exact isDirectory.elim
    · exact isDirectory.elim
    · exact ⟨entries, rfl⟩
  · rintro ⟨entries, rfl⟩
    exact True.intro

def Admits (tree : FileTree) (path : String) : Prop :=
  path.utf8ByteSize ≤ maxPathLength ∧ ¬FoundDirectory (tree.find path)

instance (tree : FileTree) (path : String) : Decidable (tree.Admits path) :=
  inferInstanceAs (Decidable (_ ∧ _))

theorem Means.free_of_admits {tree : FileTree} {path : String} {place : List String}
    (means : tree.Means path place) (admits : tree.Admits path) : ¬tree.IsDirectory place := by
  intro isDirectory
  exact admits.2 (foundDirectory_iff.mpr (means.exists_find_eq isDirectory))

end FileTree

structure IsFileName (name : String) : Prop extends FileTree.IsEntryName name where
  noSlash : '/' ∉ name.toList
  noZero : '\x00' ∉ name.toList

theorem utf8ByteSize_ofList_le (chars : List Char) :
    (String.ofList chars).utf8ByteSize ≤ 4 * chars.length := by
  induction chars with
  | nil => decide
  | cons char rest inductionHypothesis =>
      have size := char.utf8Size_le_four
      rw [String.ofList_cons, String.utf8ByteSize_append, String.utf8ByteSize_singleton,
        List.length_cons]
      omega

theorem IsFileName.of_digits {digits : List Char} (filled : digits ≠ [])
    (allDigits : ∀ char ∈ digits, char.isDigit)
    (short : 4 * digits.length ≤ FileTree.maxNameLength) :
    IsFileName (String.ofList digits) := by
  have notDigit {other : Char} (unlike : other.isDigit = false) : other ∉ digits := by
    intro member
    rw [allDigits other member] at unlike
    contradiction
  have same {text : String} (equal : String.ofList digits = text) : digits = text.toList := by
    rw [← equal, String.toList_ofList]
  have noDot : '.' ∉ digits := notDigit (by decide)
  constructor
  · constructor
    · rintro (empty | dot)
      · exact filled (same empty)
      · exact noDot (by rw [same dot]; decide)
    · intro dots
      exact noDot (by rw [same dots]; decide)
    · exact Nat.le_trans (utf8ByteSize_ofList_le digits) short
  · rw [String.toList_ofList]
    exact notDigit (by decide)
  · rw [String.toList_ofList]
    exact notDigit (by decide)

theorem isDigit_of_mem_version {version : UInt32} {char : Char}
    (member : char ∈ Nat.toDigits 10 version.toNat) : char.isDigit :=
  Nat.isDigit_of_mem_toDigits (by decide) (by decide) member

theorem isFileName_version (version : UInt32) : IsFileName (toString version) := by
  have length : (Nat.toDigits 10 version.toNat).length ≤ 10 := by
    apply (Nat.length_toDigits_le_iff (by decide) (by decide)).mpr
    exact Nat.lt_trans version.toNat_lt (by decide)
  apply IsFileName.of_digits Nat.toDigits_ne_nil
  · intro char member
    exact isDigit_of_mem_version member
  · exact Nat.le_trans (Nat.mul_le_mul_left 4 length) (by decide)

theorem isFileName_metadata : IsFileName StoreLocation.metadataName where
  notHere := by decide
  notAbove := by decide
  short := by decide
  noSlash := by decide
  noZero := by decide

/-- The metadata does not have the name of a version, which is a number. -/
theorem metadataName_ne_version (version : UInt32) :
    StoreLocation.metadataName ≠ toString version := by
  intro same
  have digits : StoreLocation.metadataName.toList = Nat.toDigits 10 version.toNat :=
    (congrArg String.toList same).trans String.toList_ofList
  have letter : 'm' ∈ Nat.toDigits 10 version.toNat := by
    rw [← digits]
    decide
  have digit := isDigit_of_mem_version letter
  contradiction

namespace StoreLocation

/-- The path of a store is that of an entry with an empty name in place of the name of the entry. -/
theorem exists_pathNames_eq (location : StoreLocation) :
    ∃ names, FileTree.pathNames location.text = names ++ [""] ∧
      ∀ name : String, '/' ∉ name.toList →
        FileTree.pathNames (location.text ++ name) = names ++ [name] := by
  rcases location.isEntryStem with empty | slash
  · refine ⟨[], by rw [empty]; rfl, ?_⟩
    intro name plain
    rw [empty, String.empty_append, FileTree.pathNames, splitFields_of_notMem plain]
    simp
  · obtain ⟨before, form⟩ := List.getLast?_eq_some_iff.mp slash
    refine ⟨(splitFields '/' before).map String.ofList, ?_, ?_⟩
    · rw [FileTree.pathNames, form, splitFields_separator, List.map_append]
      rfl
    · intro name plain
      rw [FileTree.pathNames, String.toList_append, form, List.append_assoc,
        List.singleton_append, splitFields_separator, List.map_append, splitFields_of_notMem plain]
      simp

/-- The store is a directory of the tree: the tree itself, or what a relative path leads to that
stays inside of the tree. -/
structure IsDirectoryOf (location : StoreLocation) (tree : FileTree) : Prop where
  relative : location.text.toList.head? ≠ some '/'
  inside : (FileTree.insideNames? [] (FileTree.pathNames location.text)).isSome
  found : location.text = "" ∧ (∃ entries, tree = .directory entries) ∨
    FileTree.FoundDirectory (tree.find location.text)

variable {location : StoreLocation} {tree : FileTree}

theorem IsDirectoryOf.exists_walk (store : location.IsDirectoryOf tree) :
    '\x00' ∉ location.text.toList ∧
      ∃ found, FileTree.walk [] tree (FileTree.pathNames location.text) = .ok found := by
  rcases store.found with ⟨empty, entries, rfl⟩ | opened
  · rw [empty]
    exact ⟨by decide, .directory entries, rfl⟩
  · obtain ⟨entries, found⟩ := FileTree.foundDirectory_iff.mp opened
    obtain ⟨noZero, walked⟩ := FileTree.walk_of_find store.relative found
    rw [← Bool.not_eq_true, List.contains_iff_mem] at noZero
    exact ⟨noZero, _, walked⟩

/-- Every entry whose path is short enough has a place of its own in a directory of the tree. -/
def HasPlaces (location : StoreLocation) (tree : FileTree) (directory : List String) : Prop :=
  ∀ name, IsFileName name →
    (location.text ++ name).utf8ByteSize ≤ FileTree.maxPathLength →
    tree.Means (location.text ++ name) (directory ++ [name])

theorem IsDirectoryOf.exists_places (store : location.IsDirectoryOf tree) :
    ∃ directory, location.HasPlaces tree directory := by
  obtain ⟨noZero, _, walked⟩ := store.exists_walk
  obtain ⟨stop, leads⟩ := FileTree.exists_leads_of_walk .top walked store.inside
  obtain ⟨names, stem, paths⟩ := location.exists_pathNames_eq
  rw [stem] at leads
  obtain ⟨between, leads, last⟩ := leads.exists_between
  have isDirectory := last.isDirectory_start
  refine ⟨between.reverse, ?_⟩
  intro name isName short
  have filled : name ≠ "" := fun empty => isName.notHere (.inl empty)
  constructor
  · rw [String.toList_append, ← Bool.not_eq_true, List.contains_iff_mem, List.mem_append, not_or]
    exact ⟨noZero, isName.noZero⟩
  · exact short
  · intro empty
    exact filled (String.append_eq_empty_iff.mp empty).2
  · intro absolute
    rw [String.toList_append, List.head?_append] at absolute
    cases first : location.text.toList.head? with
    | some char =>
        rw [first] at absolute
        exact store.relative (first.trans absolute)
    | none =>
        rw [first] at absolute
        exact isName.noSlash (List.mem_of_mem_head? absolute)
  · rw [paths name isName.noSlash, List.reverse_append, List.reverse_reverse]
    exact leads.append (.into isName.toIsEntryName isDirectory (.done _))

namespace HasPlaces

variable {directory : List String} {name other : String}

/-- Neither of two entries lies in the other, as both end in one name behind the directory. -/
theorem not_isPrefix (different : name ≠ other) :
    ¬directory ++ [name] <+: directory ++ [other] := by
  rw [List.prefix_append_right_inj, List.cons_prefix_cons]
  exact fun same => different same.1

section Write

variable (places : location.HasPlaces tree directory) (isName : IsFileName name)
  (admitted : tree.Admits (location.text ++ name)) (contents : Bytes)

include places isName admitted

theorem means_and_free :
    tree.Means (location.text ++ name) (directory ++ [name]) ∧
      ¬tree.IsDirectory (directory ++ [name]) :=
  have means := places name isName admitted.1
  ⟨means, means.free_of_admits admitted⟩

theorem write : location.HasPlaces (tree.write (location.text ++ name) contents) directory := by
  obtain ⟨means, free⟩ := places.means_and_free isName admitted
  intro other otherName short
  exact (places other otherName short).write means free contents

theorem find_write :
    (tree.write (location.text ++ name) contents).find (location.text ++ name) =
      .ok (.file contents) := by
  obtain ⟨means, free⟩ := places.means_and_free isName admitted
  exact means.find_write free contents

/-- The other entries are left alone, those with a path that is too long among them. -/
theorem find_write_other (otherName : IsFileName other) (different : other ≠ name) :
    (tree.write (location.text ++ name) contents).find (location.text ++ other) =
      tree.find (location.text ++ other) := by
  obtain ⟨means, free⟩ := places.means_and_free isName admitted
  by_cases short : (location.text ++ other).utf8ByteSize ≤ FileTree.maxPathLength
  · exact (places other otherName short).find_write_other means free
      (not_isPrefix (Ne.symm different)) (not_isPrefix different) contents
  · unfold FileTree.find
    rw [if_pos (Nat.not_le.mp short), if_pos (Nat.not_le.mp short)]

theorem admits_write (otherName : IsFileName other)
    (otherAdmitted : tree.Admits (location.text ++ other)) :
    (tree.write (location.text ++ name) contents).Admits (location.text ++ other) := by
  refine ⟨otherAdmitted.1, ?_⟩
  by_cases same : other = name
  · rw [same, places.find_write isName admitted]
    exact id
  · rw [places.find_write_other isName admitted contents otherName same]
    exact otherAdmitted.2

theorem access_write :
    (tree.write (location.text ++ name) contents).access (location.text ++ name) =
      .ok contents := by
  rw [FileTree.access, places.find_write isName admitted]

theorem access_write_other (otherName : IsFileName other) (different : other ≠ name) :
    (tree.write (location.text ++ name) contents).access (location.text ++ other) =
      tree.access (location.text ++ other) := by
  rw [FileTree.access, FileTree.access,
    places.find_write_other isName admitted contents otherName different]

end Write

end HasPlaces

theorem IsDirectoryOf.access_written (store : location.IsDirectoryOf tree) {first second : String}
    (firstName : IsFileName first) (secondName : IsFileName second) (different : first ≠ second)
    (firstAdmitted : tree.Admits (location.text ++ first))
    (secondAdmitted : tree.Admits (location.text ++ second))
    (firstContents secondContents : Bytes) :
    let written := (tree.write (location.text ++ first) firstContents).write
      (location.text ++ second) secondContents
    written.access (location.text ++ first) = .ok firstContents ∧
      written.access (location.text ++ second) = .ok secondContents := by
  obtain ⟨directory, places⟩ := store.exists_places
  have stillPlaces := places.write firstName firstAdmitted firstContents
  have stillAdmitted :=
    places.admits_write firstName firstAdmitted firstContents secondName secondAdmitted
  constructor
  · rw [stillPlaces.access_write_other secondName stillAdmitted secondContents firstName different]
    exact places.access_write firstName firstAdmitted firstContents
  · exact stillPlaces.access_write secondName stillAdmitted secondContents

/-- Texts that are written to the entries of the metadata and of a version are what the store then
answers with. -/
theorem IsDirectoryOf.outcome_written (store : location.IsDirectoryOf tree) {version : UInt32}
    (metadataAdmitted : tree.Admits location.metadataPath)
    (versionAdmitted : tree.Admits (location.versionPath version)) (metadata text : String) :
    let written := (tree.write location.metadataPath (Utf8.encode metadata)).write
      (location.versionPath version) (Utf8.encode text)
    ((Reader.directory location).metadata written.access).outcome = .ok metadata ∧
      ((Reader.directory location).key written.access version).outcome = .ok text := by
  obtain ⟨metadataFile, versionFile⟩ := store.access_written isFileName_metadata
    (isFileName_version version) (metadataName_ne_version version) metadataAdmitted
    versionAdmitted (Utf8.encode metadata) (Utf8.encode text)
  exact ⟨outcome_readEntry metadataFile, outcome_readEntry versionFile⟩

end StoreLocation

end KeyStore
