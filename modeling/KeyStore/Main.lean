import KeyStore.Command.Run

/-!
# The program

Gathers what a command line may need, runs it, and prints the outcome.
-/

namespace KeyStore

def FileFault.ofError : IO.Error → FileFault
  | .inappropriateType _ code _ => if code = 20 then .notDirectory else .isDirectory
  | .invalidArgument _ _ _ => .nameTooLong
  | _ => .missing

def readFile (path : String) : IO (Except FileFault Bytes) := do
  if path.toList.contains '\x00' then
    return .error .zeroInPath
  try
    return .ok (← IO.FS.readBinFile path).toList
  catch error =>
    return .error (.ofError error)

def zeroEnded : Bytes → List Bytes
  | [] => []
  | byte :: rest =>
      if byte = 0 then
        [] :: zeroEnded rest
      else
        match zeroEnded rest with
        | [] => [[byte]]
        | part :: parts => (byte :: part) :: parts

def readEnvironment : IO Environment := do
  match ← readFile "/proc/self/environ" with
  | .ok bytes => return .ofEntries ((zeroEnded bytes).filterMap Utf8.decode?)
  | .error _ => return fun _ => none

/-- Reads an input at least up to the end of its first line. -/
partial def readFirstLine (input : IO.FS.Stream) (seen : Bytes) : IO Bytes := do
  let bytes := (← input.read 4096).toList
  if bytes.isEmpty || bytes.contains DotEnv.lineFeed then
    return seen ++ bytes
  else
    readFirstLine input (seen ++ bytes)

def readFiles (paths : List String) : IO FileAccess := do
  let contents ← paths.mapM fun path => do
    return (path, ← readFile path)
  return fun path => (contents.lookup path).getD (.error .missing)

def gather (arguments : List String) : IO Surroundings := do
  let environment ← readEnvironment
  let first : Surroundings := ⟨environment, ← readFiles [environmentFile], []⟩
  match Arguments.read first.fullEnvironment arguments with
  | .ok invocation => do
      let files ← readFiles (environmentFile :: invocation.paths)
      let input ←
        if invocation.readsInput first.fullEnvironment then
          readFirstLine (← IO.getStdin) []
        else
          pure []
      return ⟨environment, files, input⟩
  | .error _ => return first

end KeyStore

open KeyStore in
def main (arguments : List String) : IO UInt32 := do
  let outcome := run arguments (← gather arguments)
  for event in outcome.events do
    IO.eprintln event.text
  IO.print outcome.output
  IO.eprint outcome.report
  return UInt32.ofNat outcome.code.number
