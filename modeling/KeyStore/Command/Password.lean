import KeyStore.Command.Failure
import KeyStore.Environment.Basic

/-!
# Passwords of the command line

A password comes from the file that is given for it, or else from a variable that is not empty, or
else from the first line of the input. Line ends behind the password do not belong to it where it
is read from a file or a line. An empty password is refused.
-/

namespace KeyStore.Password

def variableName : String := "KZREAD_PASSWORD"

def trimLineEnds (text : String) : String :=
  String.ofList
    ((text.toList.reverse.dropWhile fun char => char = '\n' || char = '\r').reverse)

/-- The first line of an input, with its line feed. -/
def firstLine (input : Bytes) : Bytes :=
  let (line, rest) := input.span (· ≠ 0x0a)
  line ++ rest.take 1

def ofFile (files : FileAccess) (path : String) : Except Failure String :=
  match files.readText path with
  | .ok text => .ok (trimLineEnds text)
  | .error fault => .error (.passwordFile path fault)

def ofInput (input : Bytes) : Except Failure String :=
  match FileFault.textOf (firstLine input) with
  | .ok text => .ok (trimLineEnds text)
  | .error fault => .error (.passwordLine fault)

def ofSurroundings (environment : Environment) (input : Bytes) : Except Failure String :=
  match environment variableName with
  | some value => if value = "" then ofInput input else .ok value
  | none => ofInput input

/-- What the source of the password holds: the file that is given, or else the surroundings. -/
def resolve (environment : Environment) (files : FileAccess) (input : Bytes) :
    (file : Option String) → Except Failure String
  | some path => ofFile files path
  | none => ofSurroundings environment input

def find (environment : Environment) (files : FileAccess) (input : Bytes) (file : Option String) :
    Except Failure String := do
  let password ← resolve environment files input file
  if password = "" then .error .noPassword else return password

end KeyStore.Password
