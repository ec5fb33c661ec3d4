import KeyStore.Environment.Basic
import KeyStore.Import.Importer

/-!
# Command line arguments

A command line is a command with options around it. The option for the store may stand before the
command and behind it; the other options belong to commands. Variables stand in for options that are
not given. Arguments are looked at from left to right, and the first one that is wrong, or that asks
for help or the version, decides.
-/

namespace KeyStore

inductive Command where
  | metadata
  | key (version : UInt32) (isProtected : Bool) (passwordFile : Option String)
  | importKey (importer : Importer) (path : String)
deriving DecidableEq, Repr

/-- A command with the store that it works on, if one is given. -/
structure Invocation where
  store : Option String
  command : Command
deriving DecidableEq, Repr

/-- Why arguments lead to no command. -/
inductive Stop where
  | usage
  | help
  | version
deriving DecidableEq, Repr

namespace Arguments

inductive CommandName where
  | metadata
  | key
  | importPrivate
  | importPublic
  | importCertificate
deriving DecidableEq, Repr

def helpWord : String := "help"

def CommandName.ofText? (text : String) : Option CommandName :=
  if text = "meta" then some .metadata
  else if text = "key" then some .key
  else if text = "import-private" then some .importPrivate
  else if text = "import-public" then some .importPublic
  else if text = "import-cert" then some .importCertificate
  else none

def CommandName.importer? (command : CommandName) (purpose : String) : Option Importer :=
  match command with
  | .metadata | .key => none
  | .importPrivate =>
      if purpose = "sign" then some .privateKeyToSign
      else if purpose = "crypt" then some .privateKeyToCrypt
      else none
  | .importPublic =>
      if purpose = "encrypt" then some .publicKeyToEncrypt
      else if purpose = "verify" then some .publicKeyToVerify
      else none
  | .importCertificate =>
      if purpose = "verify" then some .certificateToVerify
      else if purpose = "crypt" then some .certificateToCrypt
      else none

def CommandName.isImport : CommandName → Bool
  | .metadata | .key => false
  | .importPrivate | .importPublic | .importCertificate => true

/-- An option that takes a value. -/
inductive Setting where
  | store
  | passwordFile
  | purpose
deriving DecidableEq, Repr

/-- An option without a value. -/
inductive Switch where
  | isProtected
  | help
  | version
deriving DecidableEq, Repr

def Setting.ofName? (name : List Char) : Option Setting :=
  if name = "store".toList then some .store
  else if name = "password-file".toList then some .passwordFile
  else if name = "purpose".toList then some .purpose
  else none

def Switch.ofName? (name : List Char) : Option Switch :=
  if name = "pbe".toList then some .isProtected
  else if name = "help".toList then some .help
  else if name = "version".toList then some .version
  else none

def Switch.ofLetter? (letter : Char) : Option Switch :=
  if letter = 'h' then some .help
  else if letter = 'V' then some .version
  else none

/-- The part of a command line that an argument belongs to. -/
inductive Level where
  | top
  | within (command : CommandName)
deriving DecidableEq, Repr

def Level.allows : Level → Setting → Bool
  | _, .store => true
  | .within .key, .passwordFile => true
  | .within command, .purpose => command.isImport
  | _, _ => false

def Level.knows : Level → Switch → Bool
  | _, .help => true
  | .top, .version => true
  | .within .key, .isProtected => true
  | _, _ => false

/-- What options have given so far. -/
structure Given where
  store : Option String
  passwordFile : Option String
  importer : Option Importer
  isProtected : Bool
deriving DecidableEq, Repr

def Given.nothing : Given := ⟨none, none, none, false⟩

def Level.importer? : Level → String → Option Importer
  | .top, _ => none
  | .within command, purpose => command.importer? purpose

/-- Gives a setting a value. No setting takes the empty value or a second one. -/
def Given.put? (given : Given) (level : Level) (setting : Setting) (value : String) :
    Option Given :=
  if value = "" ∨ ¬level.allows setting then
    none
  else
    match setting with
    | .store => if given.store.isNone then some { given with store := some value } else none
    | .passwordFile =>
        if given.passwordFile.isNone then some { given with passwordFile := some value } else none
    | .purpose =>
        match given.importer, level.importer? value with
        | none, some importer => some { given with importer := some importer }
        | _, _ => none

inductive Argument where
  | endOfOptions
  | named (name : List Char) (value : Option String)
  | letter (letter : Char)
  | plain
deriving DecidableEq, Repr

def Argument.ofNamed (text : List Char) : Argument :=
  match text.span (· ≠ '=') with
  | (name, _ :: value) => .named name (some (String.ofList value))
  | (name, []) => .named name none

/-- The kind of a text. A single hyphen is no option. -/
def Argument.ofText (text : String) : Argument :=
  match text.toList with
  | ['-', '-'] => .endOfOptions
  | '-' :: '-' :: rest => .ofNamed rest
  | '-' :: char :: _ => .letter char
  | _ => .plain

/-! ## Rows of options -/

/-- What ends a row of options. -/
inductive Ending where
  | arguments
  | plain (text : String) (rest : List String)
  | mark (rest : List String)
deriving DecidableEq, Repr

def Given.turnOn (given : Given) (level : Level) (switch : Switch) : Except Stop Given :=
  if ¬level.knows switch then
    .error .usage
  else
    match switch with
    | .isProtected =>
        if given.isProtected then .error .usage else .ok { given with isProtected := true }
    | .help => .error .help
    | .version => .error .version

def readOptions (level : Level) : Given → List String → Except Stop (Given × Ending)
  | given, [] => .ok (given, .arguments)
  | given, text :: rest =>
      match Argument.ofText text with
      | .plain => .ok (given, .plain text rest)
      | .endOfOptions => .ok (given, .mark rest)
      | .letter letter =>
          match Switch.ofLetter? letter with
          | none => .error .usage
          | some switch =>
              match given.turnOn level switch with
              | .error stop => .error stop
              | .ok given => readOptions level given rest
      | .named name value =>
          match Setting.ofName? name with
          | some setting =>
              match value with
              | some value =>
                  match given.put? level setting value with
                  | none => .error .usage
                  | some given => readOptions level given rest
              | none =>
                  match rest with
                  | [] => .error .usage
                  | value :: behind =>
                      if Argument.ofText value ≠ .plain then
                        .error .usage
                      else
                        match given.put? level setting value with
                        | none => .error .usage
                        | some given => readOptions level given behind
          | none =>
              match Switch.ofName? name, value with
              | some switch, none =>
                  match given.turnOn level switch with
                  | .error stop => .error stop
                  | .ok given => readOptions level given rest
              | _, _ => .error .usage

/-- The version that a text writes in decimal digits, perhaps with a sign. -/
def parseVersion? (text : String) : Option UInt32 :=
  let (isNegative, digits) := match text.toList with
    | '+' :: rest => (false, rest)
    | '-' :: rest => (true, rest)
    | rest => (false, rest)
  if digits = [] ∨ ¬digits.all Char.isDigit then
    none
  else
    let number := digits.foldl (fun number digit => number * 10 + (digit.toNat - '0'.toNat)) 0
    if number < UInt32.size ∧ (isNegative → number = 0) then some (UInt32.ofNat number) else none

inductive Operand where
  | version (version : UInt32)
  | path (path : String)
deriving DecidableEq, Repr

def CommandName.operand? (command : CommandName) (text : String) : Option Operand :=
  match command with
  | .metadata => none
  | .key => (parseVersion? text).map .version
  | .importPrivate | .importPublic | .importCertificate =>
      if text = "" then none else some (.path text)

def CommandName.readOperand (command : CommandName) (text : String) : Except Stop Operand :=
  match command.operand? text with
  | some operand => .ok operand
  | none => .error .usage

def CommandName.readLast (command : CommandName) : List String → Except Stop (Option Operand)
  | [] => .ok none
  | [text] => do return some (← command.readOperand text)
  | _ :: _ :: _ => .error .usage

def noOperand : Ending → Except Stop Unit
  | .arguments | .mark [] => .ok ()
  | .plain _ _ | .mark _ => .error .usage

/-- Reads what stands behind a command: options, and between them at most one operand. -/
def readCommand (command : CommandName) (texts : List String) :
    Except Stop (Given × Option Operand) := do
  let (given, ending) ← readOptions (.within command) .nothing texts
  match ending with
  | .arguments => return (given, none)
  | .mark rest => return (given, ← command.readLast rest)
  | .plain text rest => do
      let operand ← command.readOperand text
      let (given, ending) ← readOptions (.within command) given rest
      noOperand ending
      return (given, some operand)

/-! ## Whole command lines -/

def storeVariable : String := "KZREAD_STORE"

def passwordFileVariable : String := "KZREAD_PASSWORD_FILE"

/-- A value that is given, or else that of a variable, which must not be empty. -/
def orVariable (environment : Environment) (name : String) (given : Option String) :
    Except Stop (Option String) :=
  match given, environment name with
  | some value, _ => .ok (some value)
  | none, some value => if value = "" then .error .usage else .ok (some value)
  | none, none => .ok none

def build (environment : Environment) (command : CommandName) (given : Given)
    (operand : Option Operand) : Except Stop Command :=
  match command, given.importer, operand with
  | .metadata, _, _ => .ok .metadata
  | .key, _, some (.version version) => do
      let passwordFile ← orVariable environment passwordFileVariable given.passwordFile
      return .key version given.isProtected passwordFile
  | _, some importer, some (.path path) => .ok (.importKey importer path)
  | _, _, _ => .error .usage

/-- Reads a command and what stands behind it, given the store from before it. The store behind the
command wins over the one before it, and either over the variable, which is looked at in both
places. -/
def readInvocation (environment : Environment) (before : Option String) (command : CommandName)
    (texts : List String) : Except Stop Invocation := do
  let (given, operand) ← readCommand command texts
  let inner ← orVariable environment storeVariable given.store
  let command ← build environment command given operand
  let outer ← orVariable environment storeVariable before
  return ⟨if given.store.isSome then inner else outer, command⟩

/-- What stands behind the word for help: nothing, or one command. -/
def readHelp : List String → Stop
  | [] => .help
  | [text] => if (CommandName.ofText? text).isSome ∨ text = helpWord then .help else .usage
  | _ :: _ :: _ => .usage

def read (environment : Environment) (texts : List String) : Except Stop Invocation := do
  let (given, ending) ← readOptions .top .nothing texts
  match ending with
  | .arguments | .mark _ => .error .usage
  | .plain text rest =>
      match CommandName.ofText? text with
      | some command => readInvocation environment given.store command rest
      | none => .error (if text = helpWord then readHelp rest else .usage)

end Arguments

end KeyStore
