import KeyStore.Environment.Basic
import KeyStore.Text.Alphanumeric
import KeyStore.Text.Blank
import KeyStore.Text.Utf8

/-!
# Environment files

A text of lines `NAME=value` that sets variables which are not set yet. Values may stand in single
or double quotes, may refer to variables that are set by then, and a `#` behind a blank starts a
comment. Reading ends at the first line that is malformed; what stands before it counts.
-/

namespace KeyStore.DotEnv

def lineFeed : UInt8 := 0x0a

/-- The lines of a byte string, each with its line feed. -/
def byteLines : Bytes → List Bytes
  | [] => []
  | byte :: rest =>
      if byte = lineFeed then
        [byte] :: byteLines rest
      else
        match byteLines rest with
        | [] => [[byte]]
        | line :: lines => (byte :: line) :: lines

/-- Where a line stands with its quotes. -/
inductive Quoting where
  | bare
  | blank
  | escape
  | double
  | doubleEscape
  | single
  | singleEscape
deriving DecidableEq, Repr

def Quoting.afterBare (char : Char) : Quoting :=
  if char = '\\' then .escape
  else if char = '"' then .double
  else if char = '\'' then .single
  else .bare

/-- What a character leads to, or `none` if it starts a comment. -/
def Quoting.next (char : Char) : Quoting → Option Quoting
  | .blank => if char = '#' then none else some (afterBare char)
  | .bare =>
      if isBlank char ∧ char ≠ '\n' ∧ char ≠ '\r' then some .blank else some (afterBare char)
  | .escape => some .bare
  | .double =>
      if char = '\\' then some .doubleEscape
      else if char = '"' then some .bare
      else some .double
  | .doubleEscape => some .double
  | .single =>
      if char = '\\' then some .singleEscape
      else if char = '\'' then some .bare
      else some .single
  | .singleEscape => some .single

inductive LineEnd where
  | comment (text : List Char)
  | reached (quoting : Quoting)
deriving DecidableEq, Repr

def scan : Quoting → List Char → LineEnd
  | quoting, [] => .reached quoting
  | quoting, char :: rest =>
      match quoting.next char with
      | none => .comment []
      | some following =>
          match scan following rest with
          | .comment text => .comment (char :: text)
          | .reached last => .reached last

def isComment (text : List Char) : Bool :=
  (trimStart text).head? = some '#'

/-- Joins lines whose quotes are open to the lines that close them, behind the text `begun`. In
place of a line that is not UTF-8, and of one that is never closed, stands `none`, as the last. -/
def joinLines : (begun : List Char) → Quoting → List (Option String) → List (Option (List Char))
  | _, quoting, [] => if quoting = .bare then [] else [none]
  | _, _, none :: _ => [none]
  | begun, quoting, some line :: rest =>
      let text := begun ++ line.toList
      if isComment text then
        some [] :: joinLines [] .bare rest
      else
        match scan quoting line.toList with
        | .comment before => some (begun ++ before) :: joinLines [] .bare rest
        | .reached .bare => some text :: joinLines [] .bare rest
        | .reached last => joinLines text last rest

inductive Place where
  | bare
  | double
  | single
  | escaped (inDouble : Bool)
  /-- In the name of a variable, whose last character comes first. -/
  | name (inDouble : Bool) (reversed : List Char)
  /-- In the braced name of a variable, whose last character comes first. -/
  | braced (inDouble : Bool) (reversed : List Char)
  | behind
  | comment
deriving DecidableEq, Repr

def Place.around (inDouble : Bool) : Place :=
  if inDouble then .double else .bare

/-- The value of a name; one that has none is empty. -/
def variableText (environment : Environment) (reversed : List Char) : List Char :=
  (environment.valueOf? reversed.reverse).getD []

def escapable : List Char := ['\\', '\'', '"', '$', ' ']

def Place.next (environment : Environment) (char : Char) : Place → Option (List Char × Place)
  | .bare =>
      if char = '$' then some ([], .name false [])
      else if char = '\'' then some ([], .single)
      else if char = '"' then some ([], .double)
      else if char = '\\' then some ([], .escaped false)
      else if char = ' ' ∨ char = '\t' then some ([], .behind)
      else some ([char], .bare)
  | .double =>
      if char = '$' then some ([], .name true [])
      else if char = '"' then some ([], .bare)
      else if char = '\\' then some ([], .escaped true)
      else some ([char], .double)
  | .single => if char = '\'' then some ([], .bare) else some ([char], .single)
  | .escaped inDouble =>
      if char ∈ escapable then some ([char], .around inDouble)
      else if char = 'n' then some (['\n'], .around inDouble)
      else none
  | .name inDouble reversed =>
      if isAlphanumeric char then some ([], .name inDouble (char :: reversed))
      else if char = '\x7b' ∧ reversed = [] then some ([], .braced inDouble [])
      else if char = '$' then some (variableText environment reversed, .name inDouble [])
      else some (variableText environment reversed ++ [char], .around inDouble)
  | .braced inDouble reversed =>
      if char = '\x7d' then some (variableText environment reversed, .around inDouble)
      else some ([], .braced inDouble (char :: reversed))
  | .behind =>
      if char = ' ' ∨ char = '\t' then some ([], .behind)
      else if char = '#' then some ([], .comment)
      else none
  | .comment => some ([], .comment)

/-- What the end of the text adds to the value. Quotes and braces must be closed. -/
def Place.finish (environment : Environment) : Place → Option (List Char)
  | .bare | .behind | .comment | .escaped false => some []
  | .name false reversed => some (variableText environment reversed)
  | .double | .single | .escaped true | .name true _ | .braced _ _ => none

def value? (environment : Environment) : Place → List Char → Option (List Char)
  | place, [] => place.finish environment
  | place, char :: rest => do
      let (added, following) ← place.next environment char
      return added ++ (← value? environment following rest)

inductive LineMeaning where
  | nothing
  | binding (name value : String)
  | malformed
deriving DecidableEq, Repr

/-- Splits off the name of a variable, which starts with a letter or an underscore. -/
def takeName? : List Char → Option (List Char × List Char)
  | [] => none
  | first :: rest =>
      if first.isAlpha ∨ first = '_' then
        some ((first :: rest).span fun char => char.isAlphanum || char = '_' || char = '.')
      else
        none

def behindEquals? : List Char → Option (List Char)
  | '=' :: value => some (trimStart value)
  | _ => none

/-- Splits a line at its equals sign. The word `export` may stand before the name. -/
def splitBinding? (line : List Char) : Option (List Char × List Char) := do
  let (name, rest) ← takeName? line
  match behindEquals? (trimStart rest) with
  | some value => return (name, value)
  | none =>
      if name = "export".toList then
        let (name, rest) ← takeName? (trimStart rest)
        return (name, ← behindEquals? (trimStart rest))
      else
        none

def isEmptyOrComment (text : List Char) : Bool :=
  text = [] || text.head? = some '#'

def LineMeaning.ofLine (environment : Environment) (line : List Char) : LineMeaning :=
  let line := trimBlanks line
  if isEmptyOrComment line then
    .nothing
  else
    match splitBinding? line with
    | none => .malformed
    | some (name, text) =>
        if isEmptyOrComment text then
          .binding (String.ofList name) ""
        else
          match value? environment .bare text with
          | some value => .binding (String.ofList name) (String.ofList value)
          | none => .malformed

/-- Sets the variables of the lines up to the first malformed one. -/
def supplyLines : Environment → List (Option (List Char)) → Environment
  | environment, [] => environment
  | environment, none :: _ => environment
  | environment, some line :: rest =>
      match LineMeaning.ofLine environment line with
      | .nothing => supplyLines environment rest
      | .binding name value => supplyLines (environment.supply name value) rest
      | .malformed => environment

def dropMark : Bytes → Bytes
  | 0xef :: 0xbb :: 0xbf :: rest => rest
  | bytes => bytes

def supplyFile (environment : Environment) (contents : Bytes) : Environment :=
  supplyLines environment (joinLines [] .bare ((byteLines (dropMark contents)).map Utf8.decode?))

end KeyStore.DotEnv
