import KeyStore.Proofs.Files.StoreEntries

/-!
# Slashes behind the path of a store

A path to a directory may end in slashes or not. Either way its store is a directory of the tree,
and with one slash more each entry is the same file, as long as the path stays short enough.
-/

namespace KeyStore

namespace FileTree

theorem pathNames_append (path : String) {name : String} (plain : '/' ∉ name.toList) :
    pathNames (path ++ "/" ++ name) = pathNames path ++ [name] := by
  have form : (path ++ "/" ++ name).toList = path.toList ++ '/' :: name.toList := by
    simp
  rw [pathNames, form, splitFields_separator, splitFields_of_notMem plain, List.map_append,
    List.map_singleton, String.ofList_toList]
  rfl

theorem pathNames_slash (path : String) : pathNames (path ++ "/") = pathNames path ++ [""] := by
  rw [← pathNames_append path (by decide), String.append_empty]

theorem head?_append {path : String} (filled : path ≠ "") (rest : String) :
    (path ++ rest).toList.head? = path.toList.head? := by
  rw [String.toList_append]
  cases chars : path.toList with
  | nil => exact absurd (String.toList_eq_nil_iff.mp chars) filled
  | cons char others => rfl

theorem append_ne_empty {path : String} (filled : path ≠ "") (rest : String) : path ++ rest ≠ "" :=
  fun empty => filled (String.append_eq_empty_iff.mp empty).1

theorem isHere_empty : IsHere "" :=
  .inl rfl

theorem walk_here {here : String} (isHere : IsHere here) (around : List FileTree)
    (entries : List (String × FileTree)) (names : List String) :
    walk around (directory entries) (here :: names) = walk around (directory entries) names := by
  conv => lhs; unfold walk
  rw [if_pos isHere]

/-- In front of another name, a name for the directory itself leads nowhere else. -/
theorem walk_append_here {here : String} (isHere : IsHere here) (first : List String)
    (name : String) (around : List FileTree) (current : FileTree) :
    walk around current (first ++ [here, name]) = walk around current (first ++ [name]) := by
  induction first generalizing around current with
  | nil =>
      cases current with
      | file contents => rfl
      | directory entries => exact walk_here isHere around entries [name]
  | cons other first inductionHypothesis =>
      cases current with
      | file contents => rfl
      | directory entries =>
          rw [List.cons_append, List.cons_append]
          unfold walk
          simp only [inductionHypothesis]

/-- The path names a directory: the empty path the tree itself, any other what it leads to, if it is
relative and stays inside of the tree. -/
structure HasDirectory (tree : FileTree) (path : String) : Prop where
  relative : path.toList.head? ≠ some '/'
  inside : (insideNames? [] (pathNames path)).isSome
  found : path = "" ∧ (∃ entries, tree = .directory entries) ∨ FoundDirectory (tree.find path)

variable {tree : FileTree} {path : String}

theorem isDirectory_of_atPlace {place : List String} {entries : List (String × FileTree)}
    (reached : tree.atPlace place = .ok (.directory entries)) : tree.IsDirectory place := by
  rw [atPlace] at reached
  split at reached
  · next found => exact ⟨entries, by rw [found, Except.ok.inj reached]⟩
  · contradiction

/-- A slash behind the path of a directory leads to the same directory. -/
theorem HasDirectory.slash (store : tree.HasDirectory path) (filled : path ≠ "")
    (short : (path ++ "/").utf8ByteSize ≤ maxPathLength) : tree.HasDirectory (path ++ "/") := by
  have opened : FoundDirectory (tree.find path) := by
    rcases store.found with ⟨empty, _⟩ | opened
    · exact absurd empty filled
    · exact opened
  obtain ⟨entries, found⟩ := foundDirectory_iff.mp opened
  obtain ⟨noZero, walked⟩ := walk_of_find store.relative found
  obtain ⟨stop, leads⟩ := exists_leads_of_walk .top walked store.inside
  have reached : tree.atPlace stop.reverse = .ok (.directory entries) := by
    rw [← leads.walk_eq .top, walked]
  have relative : (path ++ "/").toList.head? ≠ some '/' := by
    rw [head?_append filled]
    exact store.relative
  have longer : Leads tree [] (pathNames (path ++ "/")) stop := by
    rw [pathNames_slash]
    exact leads.append (.here isHere_empty (isDirectory_of_atPlace reached) (.done stop))
  have means : tree.Means (path ++ "/") stop.reverse :=
    { noZero := by
        rw [String.toList_append, List.contains_append, noZero]
        decide
      short := short
      filled := append_ne_empty filled "/"
      relative := relative
      leads := by
        rw [List.reverse_reverse]
        exact longer }
  constructor
  · exact relative
  · rw [longer.insideNames?_eq]
    rfl
  · rw [means.find_eq, reached]
    exact .inr True.intro

end FileTree

namespace StoreLocation

theorem text_ofPath_of_stem {path : String} (stem : IsEntryStem path) :
    (ofPath path).text = path := by
  rw [ofPath, dif_pos stem]

theorem text_ofPath_of_not_stem {path : String} (notStem : ¬IsEntryStem path) :
    (ofPath path).text = path ++ "/" := by
  rw [ofPath, dif_neg notStem]

/-- The store of a directory is a directory of the tree, however its path ends. -/
theorem isDirectoryOf_of_hasDirectory {tree : FileTree} {path : String}
    (store : tree.HasDirectory path)
    (short : (ofPath path).text.utf8ByteSize ≤ FileTree.maxPathLength) :
    (ofPath path).IsDirectoryOf tree := by
  have named : tree.HasDirectory (ofPath path).text := by
    by_cases stem : IsEntryStem path
    · rw [text_ofPath_of_stem stem]
      exact store
    · rw [text_ofPath_of_not_stem stem] at short ⊢
      exact store.slash (fun empty => stem (.inl empty)) short
  exact ⟨named.relative, named.inside, named.found⟩

end StoreLocation

namespace FileTree

theorem find_congr (tree : FileTree) {path other : String}
    (zero : path.toList.contains '\x00' = other.toList.contains '\x00')
    (short : path.utf8ByteSize ≤ maxPathLength) (otherShort : other.utf8ByteSize ≤ maxPathLength)
    (filled : path ≠ "") (otherFilled : other ≠ "")
    (head : path.toList.head? = other.toList.head?)
    (walked : ∀ start, walk [] start (pathNames path) = walk [] start (pathNames other)) :
    tree.find path = tree.find other := by
  unfold find
  rw [zero, head, if_neg (Nat.not_lt.mpr short), if_neg (Nat.not_lt.mpr otherShort), if_neg filled,
    if_neg otherFilled]
  simp only [walked]

/-- One slash more in front of a name changes nothing if the path stays short enough. -/
theorem find_slash (tree : FileTree) {path name : String} (slash : path.toList.getLast? = some '/')
    (plain : '/' ∉ name.toList)
    (short : (path ++ "/" ++ name).utf8ByteSize ≤ maxPathLength) :
    tree.find (path ++ "/" ++ name) = tree.find (path ++ name) := by
  obtain ⟨before, form⟩ := List.getLast?_eq_some_iff.mp slash
  have stem : path = String.ofList before ++ "/" := by
    rw [← String.toList_inj, form]
    simp
  have filled : path ≠ "" := by
    rintro rfl
    contradiction
  have names : pathNames (path ++ name) = pathNames (String.ofList before) ++ [name] := by
    rw [stem, pathNames_append _ plain]
  have longerNames :
      pathNames (path ++ "/" ++ name) = pathNames (String.ofList before) ++ ["", name] := by
    rw [pathNames_append _ plain, stem, pathNames_slash, List.append_assoc]
    rfl
  apply find_congr
  · simp
  · exact short
  · simp only [String.utf8ByteSize_append] at short ⊢
    omega
  · exact append_ne_empty (append_ne_empty filled "/") name
  · exact append_ne_empty filled name
  · rw [head?_append (append_ne_empty filled "/"), head?_append filled, head?_append filled]
  · intro start
    rw [names, longerNames]
    exact walk_append_here isHere_empty _ name [] start

end FileTree

end KeyStore
