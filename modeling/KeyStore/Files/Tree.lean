import KeyStore.Files.Access
import KeyStore.Text.Fields

/-!
# Trees of files

A directory with everything below it, as a value: files are read by path, and writing, making a
directory and removing give a new tree. The directory is where relative paths start; of what lies
outside nothing is known, so it counts as empty.
-/

namespace KeyStore

inductive FileTree where
  | file (contents : Bytes)
  /-- A directory with its entries, of which the first of a name counts. -/
  | directory (entries : List (String × FileTree))

namespace FileTree

def empty : FileTree := .directory []

def pathNames (path : String) : List String :=
  (splitFields '/' path.toList).map String.ofList

/-- Whether a name stands for the directory in which it is looked up. -/
def IsHere (name : String) : Prop :=
  name = "" ∨ name = "."

instance (name : String) : Decidable (IsHere name) :=
  inferInstanceAs (Decidable (_ ∨ _))

def maxNameLength : Nat := 255

def maxPathLength : Nat := 4095

/-- What the names lead to from a directory or file, given the directories around it from the
innermost to the outermost. -/
def walk : (around : List FileTree) → (current : FileTree) → (names : List String) →
    Except FileFault FileTree
  | _, current, [] => .ok current
  | _, .file _, _ :: _ => .error .notDirectory
  | around, .directory entries, name :: names =>
      if IsHere name then
        walk around (.directory entries) names
      else if name = ".." then
        match around with
        | [] => walk [] empty names
        | outer :: others => walk others outer names
      else if maxNameLength < name.utf8ByteSize then
        .error .nameTooLong
      else
        match entries.lookup name with
        | some tree => walk (.directory entries :: around) tree names
        | none => .error .missing

/-- What a path leads to. An absolute path starts outside of the tree. -/
def find (tree : FileTree) (path : String) : Except FileFault FileTree :=
  if path.toList.contains '\x00' then
    .error .zeroInPath
  else if maxPathLength < path.utf8ByteSize then
    .error .nameTooLong
  else if path = "" then
    .error .missing
  else
    match path.toList.head? with
    | some '/' => walk [] empty (pathNames path)
    | _ => walk [] tree (pathNames path)

def access (tree : FileTree) : FileAccess := fun path =>
  match tree.find path with
  | .ok (.file contents) => .ok contents
  | .ok (.directory _) => .error .isDirectory
  | .error fault => .error fault

/-- The names that lead from the top of the tree to what a path means, or `none` if it means
something outside. -/
def insideNames? : (above : List String) → (names : List String) → Option (List String)
  | above, [] => some above.reverse
  | above, name :: names =>
      if IsHere name then
        insideNames? above names
      else if name = ".." then
        match above with
        | [] => none
        | _ :: others => insideNames? others names
      else
        insideNames? (name :: above) names

/-- The entries of a directory; a file has none. -/
def entries : FileTree → List (String × FileTree)
  | .file _ => []
  | .directory entries => entries

def putEntry (name : String) (tree : FileTree) :
    List (String × FileTree) → List (String × FileTree)
  | [] => [(name, tree)]
  | (other, old) :: rest =>
      if other = name then (name, tree) :: rest else (other, old) :: putEntry name tree rest

/-- Changes what the names lead to. Directories on the way are made, also in the place of files. -/
def modify (change : Option FileTree → FileTree) : (names : List String) →
    Option FileTree → FileTree
  | [], tree => change tree
  | name :: names, tree =>
      let entries := (tree.getD empty).entries
      .directory (putEntry name (modify change names (entries.lookup name)) entries)

/-- A directory as it is; in the place of anything else, an empty one. -/
def asDirectory : Option FileTree → FileTree
  | some (.directory entries) => .directory entries
  | _ => empty

/-- Makes the directories that a path enters only to leave them again; `above` leads to where the
path has come so far, the innermost name first. -/
def makePassed : (above : List String) → (names : List String) → FileTree → FileTree
  | _, [], tree => tree
  | above, name :: names, tree =>
      if IsHere name then
        makePassed above names tree
      else if name = ".." then
        makePassed (above.drop 1) names (modify asDirectory above.reverse (some tree))
      else
        makePassed (name :: above) names tree

/-- Changes what a path leads to. A path that leads outside changes nothing. -/
def modifyPath (change : Option FileTree → FileTree) (path : String) (tree : FileTree) :
    FileTree :=
  match insideNames? [] (pathNames path) with
  | some names => modify change names (some (makePassed [] (pathNames path) tree))
  | none => tree

def write (path : String) (contents : Bytes) (tree : FileTree) : FileTree :=
  tree.modifyPath (fun _ => .file contents) path

def makeDirectory (path : String) (tree : FileTree) : FileTree :=
  tree.modifyPath asDirectory path

def erase : (names : List String) → FileTree → FileTree
  | _, .file contents => .file contents
  | [], .directory entries => .directory entries
  | [name], .directory entries => .directory (entries.filter fun entry => entry.1 ≠ name)
  | name :: next :: names, .directory entries =>
      match entries.lookup name with
      | some tree => .directory (putEntry name (erase (next :: names) tree) entries)
      | none => .directory entries

/-- Whether a path ends in a name for a directory that is open already. Such a directory can be
emptied, but not removed. -/
def endsInside (path : String) : Bool :=
  match (pathNames path).filter (· ≠ "") |>.getLast? with
  | some name => name = "." || name = ".."
  | none => false

/-- Removes the file or the whole directory that a path leads to, if there is one. -/
def remove (path : String) (tree : FileTree) : FileTree :=
  match tree.find path, insideNames? [] (pathNames path) with
  | .ok _, some names =>
      if endsInside path then modify (fun _ => empty) names (some tree) else tree.erase names
  | _, _ => tree

end FileTree

end KeyStore
