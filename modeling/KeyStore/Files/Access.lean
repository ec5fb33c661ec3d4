import KeyStore.Text.Utf8

/-!
# Reading files

What a reader sees of a file system: for each path the bytes of the file, or the reason why there
are none. Texts are read strictly, so a file that is not UTF-8 is refused as a whole.
-/

namespace KeyStore

inductive FileFault where
  | missing
  | notDirectory
  | isDirectory
  | nameTooLong
  | zeroInPath
  | notText
deriving DecidableEq, Repr

def FileFault.message : FileFault → String
  | .missing => "No such file or directory (os error 2)"
  | .notDirectory => "Not a directory (os error 20)"
  | .isDirectory => "Is a directory (os error 21)"
  | .nameTooLong => "File name too long (os error 36)"
  | .zeroInPath => "file name contained an unexpected NUL byte"
  | .notText => "stream did not contain valid UTF-8"

/-- The contents of files by path. -/
abbrev FileAccess := String → Except FileFault Bytes

def FileFault.textOf (bytes : Bytes) : Except FileFault String :=
  match Utf8.decode? bytes with
  | some text => .ok text
  | none => .error .notText

def FileAccess.readText (files : FileAccess) (path : String) : Except FileFault String :=
  match files path with
  | .ok bytes => FileFault.textOf bytes
  | .error fault => .error fault

theorem FileAccess.readText_of_file {files : FileAccess} {path text : String}
    (file : files path = .ok (Utf8.encode text)) : files.readText path = .ok text := by
  rw [readText, file]
  simp only [FileFault.textOf, Utf8.decode?_encode]

end KeyStore
