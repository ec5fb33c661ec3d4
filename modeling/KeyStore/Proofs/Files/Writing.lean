import KeyStore.Files.Tree

/-!
# What writing changes

A path that stays inside of a tree means a place, given by the names of entries from the top down.
A file that is written is found at its place again, and every place outside of it holds what it held
before.
-/

namespace KeyStore.FileTree

def descend : FileTree → List String → Option FileTree
  | tree, [] => some tree
  | tree, name :: names => (tree.entries.lookup name).bind fun inner => inner.descend names

def IsDirectory (tree : FileTree) (place : List String) : Prop :=
  ∃ entries, tree.descend place = some (.directory entries)

section Entries

variable {name : String} {tree : FileTree} {entries : List (String × FileTree)}

theorem lookup_putEntry_same (name : String) (tree : FileTree)
    (entries : List (String × FileTree)) :
    (putEntry name tree entries).lookup name = some tree := by
  induction entries with
  | nil => exact List.lookup_cons_self
  | cons entry entries inductionHypothesis =>
      rcases entry with ⟨other, old⟩
      by_cases same : other = name
      · rw [putEntry, if_pos same, List.lookup_cons_self]
      · rw [putEntry, if_neg same, List.lookup_cons, beq_false_of_ne (Ne.symm same)]
        exact inductionHypothesis

theorem lookup_putEntry_other {other : String} (different : other ≠ name) :
    (putEntry name tree entries).lookup other = entries.lookup other := by
  induction entries with
  | nil => rw [putEntry, List.lookup_cons, beq_false_of_ne different]
  | cons entry entries inductionHypothesis =>
      rcases entry with ⟨first, old⟩
      by_cases same : first = name
      · rw [putEntry, if_pos same, List.lookup_cons, List.lookup_cons, same,
          beq_false_of_ne different]
      · rw [putEntry, if_neg same, List.lookup_cons, List.lookup_cons, inductionHypothesis]

theorem putEntry_of_lookup (found : entries.lookup name = some tree) :
    putEntry name tree entries = entries := by
  induction entries with
  | nil => contradiction
  | cons entry entries inductionHypothesis =>
      rcases entry with ⟨other, old⟩
      by_cases same : other = name
      · rw [same, List.lookup_cons_self] at found
        rw [putEntry, if_pos same, same, Option.some.inj found]
      · rw [List.lookup_cons, beq_false_of_ne (Ne.symm same)] at found
        rw [putEntry, if_neg same, inductionHypothesis found]

end Entries

theorem descend_append (tree : FileTree) (first second : List String) :
    tree.descend (first ++ second) =
      (tree.descend first).bind fun found => found.descend second := by
  induction first generalizing tree with
  | nil => rfl
  | cons name names inductionHypothesis =>
      rw [List.cons_append, descend, descend, Option.bind_assoc]
      congr 1
      funext inner
      exact inductionHypothesis inner

theorem descend_concat (tree : FileTree) (place : List String) (name : String) :
    tree.descend (place ++ [name]) =
      (tree.descend place).bind fun found => found.entries.lookup name := by
  rw [descend_append]
  congr 1
  funext found
  exact Option.bind_fun_some _

theorem exists_directory_of_lookup {tree inner : FileTree} {name : String}
    (found : tree.entries.lookup name = some inner) :
    ∃ entries, tree = .directory entries ∧ entries.lookup name = some inner := by
  cases tree with
  | file contents => contradiction
  | directory entries => exact ⟨entries, rfl, found⟩

theorem IsDirectory.of_append {tree : FileTree} {first second : List String}
    (isDirectory : tree.IsDirectory (first ++ second)) : tree.IsDirectory first := by
  obtain ⟨entries, found⟩ := isDirectory
  rw [descend_append] at found
  obtain ⟨upper, reached, later⟩ := Option.bind_eq_some_iff.mp found
  cases second with
  | nil => exact ⟨entries, by rw [reached, ← later]; rfl⟩
  | cons name names =>
      obtain ⟨inner, entry, _⟩ := Option.bind_eq_some_iff.mp later
      obtain ⟨others, rfl, _⟩ := exists_directory_of_lookup entry
      exact ⟨others, reached⟩

theorem lookup_entries_getD (tree : Option FileTree) (name : String) :
    (tree.getD empty).entries.lookup name =
      tree.bind fun found => found.entries.lookup name := by
  cases tree with
  | none => rfl
  | some found => rfl

theorem descend_modify_same (change : Option FileTree → FileTree) (place : List String)
    (tree : Option FileTree) :
    (modify change place tree).descend place =
      some (change (tree.bind fun found => found.descend place)) := by
  induction place generalizing tree with
  | nil =>
      cases tree with
      | none => rfl
      | some found => rfl
  | cons name names inductionHypothesis =>
      rw [modify, descend, entries, lookup_putEntry_same, Option.bind_some, inductionHypothesis,
        lookup_entries_getD, Option.bind_assoc]
      rfl

/-- A place that is not inside of the changed one, and does not lie above it, is left alone. -/
theorem descend_modify_other {change : Option FileTree → FileTree} {place other : List String}
    (outside : ¬place <+: other) (notAbove : ¬other <+: place) (tree : Option FileTree) :
    (modify change place tree).descend other = tree.bind fun found => found.descend other := by
  induction other generalizing place tree with
  | nil => exact absurd List.nil_prefix notAbove
  | cons name names inductionHypothesis =>
      cases place with
      | nil => exact absurd List.nil_prefix outside
      | cons first place =>
          have entry := lookup_entries_getD tree name
          have reached : (tree.bind fun found => found.descend (name :: names)) =
              ((tree.getD empty).entries.lookup name).bind fun inner => inner.descend names := by
            rw [entry, Option.bind_assoc]
            rfl
          rw [reached, modify, descend, entries]
          by_cases same : name = first
          · subst same
            rw [List.cons_prefix_cons, not_and] at outside notAbove
            rw [lookup_putEntry_same, Option.bind_some]
            exact inductionHypothesis (outside rfl) (notAbove rfl) _
          · rw [lookup_putEntry_other same]

/-- A directory that is not inside of the changed place is still a directory. -/
theorem IsDirectory.modify {change : Option FileTree → FileTree} {place other : List String}
    (outside : ¬place <+: other) {tree : FileTree} (isDirectory : tree.IsDirectory other) :
    (FileTree.modify change place (some tree)).IsDirectory other := by
  induction other generalizing place tree with
  | nil =>
      cases place with
      | nil => exact absurd (List.prefix_refl []) outside
      | cons first place => exact ⟨_, rfl⟩
  | cons name names inductionHypothesis =>
      cases place with
      | nil => exact absurd List.nil_prefix outside
      | cons first place =>
          obtain ⟨found, reached⟩ := isDirectory
          obtain ⟨inner, entry, later⟩ := Option.bind_eq_some_iff.mp reached
          rw [IsDirectory, FileTree.modify, descend, entries, Option.getD_some]
          by_cases same : name = first
          · subst same
            rw [List.cons_prefix_cons, not_and] at outside
            rw [lookup_putEntry_same, Option.bind_some, entry]
            exact inductionHypothesis (outside rfl) ⟨found, later⟩
          · rw [lookup_putEntry_other same, entry]
            exact ⟨found, later⟩

theorem modify_asDirectory {place : List String} {tree : FileTree}
    (isDirectory : tree.IsDirectory place) : modify asDirectory place (some tree) = tree := by
  induction place generalizing tree with
  | nil =>
      obtain ⟨found, reached⟩ := isDirectory
      rw [Option.some.inj reached]
      rfl
  | cons name names inductionHypothesis =>
      obtain ⟨found, reached⟩ := isDirectory
      obtain ⟨inner, entry, later⟩ := Option.bind_eq_some_iff.mp reached
      obtain ⟨others, rfl, isEntry⟩ := exists_directory_of_lookup entry
      rw [modify, Option.getD_some, entry, inductionHypothesis ⟨found, later⟩, entries,
        putEntry_of_lookup isEntry]

/-! ## Following names -/

/-- A name of an entry, which has a meaning of its own in no directory. -/
structure IsEntryName (name : String) : Prop where
  notHere : ¬IsHere name
  notAbove : name ≠ ".."
  short : name.utf8ByteSize ≤ maxNameLength

/-- The names lead from one place to another without leaving the tree, and every directory on the
way is there. Both places are given by the names of entries with the innermost first. -/
inductive Leads (tree : FileTree) : (start names stop : List String) → Prop
  | done (place : List String) : Leads tree place [] place
  | here {name : String} {place names stop : List String} (isHere : IsHere name)
      (opened : tree.IsDirectory place.reverse) (later : Leads tree place names stop) :
      Leads tree place (name :: names) stop
  | up {name : String} {place names stop : List String}
      (opened : tree.IsDirectory (name :: place).reverse) (later : Leads tree place names stop) :
      Leads tree (name :: place) (".." :: names) stop
  | into {name : String} {place names stop : List String} (isName : IsEntryName name)
      (opened : tree.IsDirectory place.reverse) (later : Leads tree (name :: place) names stop) :
      Leads tree place (name :: names) stop

namespace Leads

variable {tree other : FileTree} {start names stop : List String}

theorem append {between more : List String} (first : Leads tree start names between)
    (second : Leads tree between more stop) : Leads tree start (names ++ more) stop := by
  induction first with
  | done place =>
      exact second
  | here isHere opened _ inductionHypothesis =>
      exact .here isHere opened (inductionHypothesis second)
  | up opened _ inductionHypothesis =>
      exact .up opened (inductionHypothesis second)
  | into isName opened _ inductionHypothesis =>
      exact .into isName opened (inductionHypothesis second)

theorem exists_between {first second : List String}
    (leads : Leads tree start (first ++ second) stop) :
    ∃ between, Leads tree start first between ∧ Leads tree between second stop := by
  induction first generalizing start with
  | nil => exact ⟨start, .done start, leads⟩
  | cons name names inductionHypothesis =>
      cases leads with
      | here isHere opened later =>
          obtain ⟨between, before, behind⟩ := inductionHypothesis later
          exact ⟨between, .here isHere opened before, behind⟩
      | up opened later =>
          obtain ⟨between, before, behind⟩ := inductionHypothesis later
          exact ⟨between, .up opened before, behind⟩
      | into isName opened later =>
          obtain ⟨between, before, behind⟩ := inductionHypothesis later
          exact ⟨between, .into isName opened before, behind⟩

theorem isDirectory_start {name : String} (leads : Leads tree start (name :: names) stop) :
    tree.IsDirectory start.reverse := by
  cases leads with
  | here _ opened _ => exact opened
  | up opened _ => exact opened
  | into _ opened _ => exact opened

/-- In a tree that has the same directories the names lead to the same place. -/
theorem mono (leads : Leads tree start names stop)
    (kept : ∀ place, tree.IsDirectory place → other.IsDirectory place) :
    Leads other start names stop := by
  induction leads with
  | done place =>
      exact .done place
  | here isHere opened _ inductionHypothesis =>
      exact .here isHere (kept _ opened) inductionHypothesis
  | up opened _ inductionHypothesis =>
      exact .up (kept _ opened) inductionHypothesis
  | into isName opened _ inductionHypothesis =>
      exact .into isName (kept _ opened) inductionHypothesis

theorem insideNames?_eq (leads : Leads tree start names stop) :
    insideNames? start names = some stop.reverse := by
  induction leads with
  | done place => rfl
  | here isHere _ _ inductionHypothesis =>
      unfold insideNames?
      rw [if_pos isHere, inductionHypothesis]
  | up _ _ inductionHypothesis =>
      rw [insideNames?, if_neg (by decide), if_pos rfl]
      exact inductionHypothesis
  | into isName _ _ inductionHypothesis =>
      unfold insideNames?
      rw [if_neg isName.notHere, if_neg isName.notAbove, inductionHypothesis]

theorem makePassed_eq (leads : Leads tree start names stop) :
    makePassed start names tree = tree := by
  induction leads with
  | done place => rfl
  | here isHere _ _ inductionHypothesis => rw [makePassed, if_pos isHere, inductionHypothesis]
  | up opened _ inductionHypothesis =>
      rw [makePassed, if_neg (by decide), if_pos rfl, modify_asDirectory opened]
      exact inductionHypothesis
  | into isName _ _ inductionHypothesis =>
      rw [makePassed, if_neg isName.notHere, if_neg isName.notAbove, inductionHypothesis]

end Leads

/-- Going down from the top of a tree, a walk remembers the directories it has come through. -/
inductive Around (tree : FileTree) :
    (place : List String) → (around : List FileTree) → (current : FileTree) → Prop
  | top : Around tree [] [] tree
  | inside {name : String} {place : List String} {around : List FileTree}
      {outer current : FileTree} (outside : Around tree place around outer)
      (entry : outer.entries.lookup name = some current) :
      Around tree (name :: place) (outer :: around) current

theorem Around.descend_eq {tree current : FileTree} {place : List String}
    {around : List FileTree} (position : Around tree place around current) :
    tree.descend place.reverse = some current := by
  induction position with
  | top => rfl
  | inside _ entry inductionHypothesis =>
      rw [List.reverse_cons, descend_concat, inductionHypothesis]
      exact entry

theorem Around.isDirectory {tree : FileTree} {place : List String} {around : List FileTree}
    {entries : List (String × FileTree)}
    (position : Around tree place around (.directory entries)) :
    tree.IsDirectory place.reverse :=
  ⟨entries, position.descend_eq⟩

theorem Around.exists_entries {tree current : FileTree} {place : List String}
    {around : List FileTree} (position : Around tree place around current)
    (isDirectory : tree.IsDirectory place.reverse) : ∃ entries, current = .directory entries := by
  obtain ⟨entries, reached⟩ := isDirectory
  rw [position.descend_eq] at reached
  exact ⟨entries, Option.some.inj reached⟩

/-- Names that can be walked without leaving the tree lead somewhere. -/
theorem exists_leads_of_walk {tree found : FileTree} {names : List String} :
    ∀ {place : List String} {around : List FileTree} {current : FileTree},
      Around tree place around current → walk around current names = .ok found →
      (insideNames? place names).isSome → ∃ stop, Leads tree place names stop := by
  induction names with
  | nil =>
      intro place _ _ _ _ _
      exact ⟨place, .done place⟩
  | cons name names inductionHypothesis =>
      intro place around current position walked inside
      cases current with
      | file contents =>
          rw [walk] at walked
          contradiction
      | directory entries =>
          unfold walk at walked
          unfold insideNames? at inside
          by_cases isHere : IsHere name
          · rw [if_pos isHere] at walked inside
            obtain ⟨stop, leads⟩ := inductionHypothesis position walked inside
            exact ⟨stop, .here isHere position.isDirectory leads⟩
          · rw [if_neg isHere] at walked inside
            by_cases above : name = ".."
            · subst above
              rw [if_pos rfl] at walked inside
              cases position with
              | top => contradiction
              | inside outside entry =>
                  obtain ⟨stop, leads⟩ := inductionHypothesis outside walked inside
                  exact ⟨stop, .up (outside.inside entry).isDirectory leads⟩
            · rw [if_neg above] at walked inside
              by_cases long : maxNameLength < name.utf8ByteSize
              · rw [if_pos long] at walked
                contradiction
              · rw [if_neg long] at walked
                cases entry : entries.lookup name with
                | none =>
                    rw [entry] at walked
                    contradiction
                | some inner =>
                    rw [entry] at walked
                    obtain ⟨stop, leads⟩ :=
                      inductionHypothesis (position.inside entry) walked inside
                    have isName : IsEntryName name := ⟨isHere, above, Nat.not_lt.mp long⟩
                    exact ⟨stop, .into isName position.isDirectory leads⟩

def atPlace (tree : FileTree) (place : List String) : Except FileFault FileTree :=
  match tree.descend place with
  | some found => .ok found
  | none => .error .missing

theorem Leads.walk_eq {tree : FileTree} {start names stop : List String}
    (leads : Leads tree start names stop) :
    ∀ {around : List FileTree} {current : FileTree}, Around tree start around current →
      walk around current names = tree.atPlace stop.reverse := by
  induction leads with
  | done place =>
      intro around current position
      rw [walk, atPlace, position.descend_eq]
  | here isHere opened _ inductionHypothesis =>
      intro around current position
      obtain ⟨entries, rfl⟩ := position.exists_entries opened
      unfold walk
      rw [if_pos isHere, inductionHypothesis position]
  | up opened _ inductionHypothesis =>
      intro around current position
      obtain ⟨entries, rfl⟩ := position.exists_entries opened
      cases position with
      | inside outside entry =>
          rw [walk, if_neg (by decide), if_pos rfl]
          exact inductionHypothesis outside
  | @into name place names stop isName opened later inductionHypothesis =>
      intro around current position
      obtain ⟨entries, rfl⟩ := position.exists_entries opened
      unfold walk
      rw [if_neg isName.notHere, if_neg isName.notAbove, if_neg (Nat.not_lt.mpr isName.short)]
      cases entry : entries.lookup name with
      | some inner => exact inductionHypothesis (position.inside entry)
      | none =>
          have missing : tree.descend (name :: place).reverse = none := by
            rw [List.reverse_cons, descend_concat, position.descend_eq]
            exact entry
          -- Nothing can be opened below a name that is missing, so it is the last one.
          have closed : ¬tree.IsDirectory (name :: place).reverse := by
            rintro ⟨_, reached⟩
            rw [missing] at reached
            contradiction
          cases names with
          | cons next others => exact absurd later.isDirectory_start closed
          | nil =>
              cases later with
              | done => rw [atPlace, missing]

/-! ## Paths -/

/-- A relative path that the limits allow is walked from the top of the tree. -/
theorem find_eq_walk {tree : FileTree} {path : String}
    (noZero : path.toList.contains '\x00' = false) (short : path.utf8ByteSize ≤ maxPathLength)
    (filled : path ≠ "") (relative : path.toList.head? ≠ some '/') :
    tree.find path = walk [] tree (pathNames path) := by
  unfold find
  rw [if_neg (by rw [noZero]; decide), if_neg (Nat.not_lt.mpr short), if_neg filled]
  split
  · next absolute => exact absurd absolute relative
  · rfl

theorem walk_of_find {tree found : FileTree} {path : String}
    (relative : path.toList.head? ≠ some '/') (reached : tree.find path = .ok found) :
    path.toList.contains '\x00' = false ∧ walk [] tree (pathNames path) = .ok found := by
  unfold find at reached
  split at reached
  · contradiction
  · next noZero =>
      split at reached
      · contradiction
      · split at reached
        · contradiction
        · split at reached
          · next absolute => exact absurd absolute relative
          · exact ⟨Bool.eq_false_iff.mpr noZero, reached⟩

/-- The path means a place inside of the tree, whether or not anything is there. -/
structure Means (tree : FileTree) (path : String) (place : List String) : Prop where
  noZero : path.toList.contains '\x00' = false
  short : path.utf8ByteSize ≤ maxPathLength
  filled : path ≠ ""
  relative : path.toList.head? ≠ some '/'
  leads : Leads tree [] (pathNames path) place.reverse

namespace Means

variable {tree : FileTree} {path other : String} {place otherPlace : List String}

theorem find_eq (means : Means tree path place) : tree.find path = tree.atPlace place := by
  have walked := means.leads.walk_eq .top
  rw [List.reverse_reverse] at walked
  rw [find_eq_walk means.noZero means.short means.filled means.relative, walked]

theorem write_eq (means : Means tree path place) (contents : Bytes) :
    tree.write path contents = modify (fun _ => .file contents) place (some tree) := by
  have inside := means.leads.insideNames?_eq
  rw [List.reverse_reverse] at inside
  unfold write modifyPath
  rw [inside, means.leads.makePassed_eq]

/-- Writing a file changes the meaning of no path, unless it replaces a directory. -/
theorem write (meansOther : Means tree other otherPlace) (means : Means tree path place)
    (free : ¬tree.IsDirectory place) (contents : Bytes) :
    Means (tree.write path contents) other otherPlace where
  noZero := meansOther.noZero
  short := meansOther.short
  filled := meansOther.filled
  relative := meansOther.relative
  leads := by
    apply meansOther.leads.mono
    intro directory isDirectory
    rw [means.write_eq]
    apply IsDirectory.modify _ isDirectory
    rintro ⟨more, rfl⟩
    exact free isDirectory.of_append

theorem find_write (means : Means tree path place) (free : ¬tree.IsDirectory place)
    (contents : Bytes) : (tree.write path contents).find path = .ok (.file contents) := by
  rw [(means.write means free contents).find_eq, means.write_eq, atPlace, descend_modify_same]

theorem find_write_other (meansOther : Means tree other otherPlace)
    (means : Means tree path place) (free : ¬tree.IsDirectory place)
    (outside : ¬place <+: otherPlace) (notAbove : ¬otherPlace <+: place) (contents : Bytes) :
    (tree.write path contents).find other = tree.find other := by
  rw [(meansOther.write means free contents).find_eq, meansOther.find_eq, atPlace, atPlace,
    means.write_eq, descend_modify_other outside notAbove, Option.bind_some]

theorem exists_find_eq (means : Means tree path place) (isDirectory : tree.IsDirectory place) :
    ∃ entries, tree.find path = .ok (.directory entries) := by
  obtain ⟨entries, reached⟩ := isDirectory
  refine ⟨entries, ?_⟩
  rw [means.find_eq, atPlace, reached]

end Means

end KeyStore.FileTree
