import KeyStore.StoreFault
import KeyStore.Text.Fields

/-!
# Failures of commands

What a command was about when it failed, and the report that is printed: the context, then the
chain of causes, numbered if there are several. Every line of a cause is indented.
-/

namespace KeyStore

inductive Failure where
  | noStore
  /-- A reader fails, of which nothing more is said. -/
  | reader (fault : StoreFault)
  | key (version : UInt32) (fault : StoreFault)
  | importing (path : String) (fault : StoreFault)
  | passwordFile (path : String) (fault : FileFault)
  | passwordLine (fault : FileFault)
  | noPassword
deriving DecidableEq

namespace Failure

def context : Failure → String
  | .noStore => "no key store given; use --store or KZREAD_STORE"
  | .reader fault => fault.message
  | .key version _ => "failed to read key version " ++ toString version
  | .importing path _ => "failed to import '" ++ path ++ "'"
  | .passwordFile path _ => "failed to read password file '" ++ path ++ "'"
  | .passwordLine fault => fault.message
  | .noPassword => "No password provided"

def causes : Failure → List String
  | .reader fault => fault.causes
  | .key _ fault | .importing _ fault => fault.message :: fault.causes
  | .passwordFile _ fault => [fault.message]
  | .noStore | .passwordLine _ | .noPassword => []

end Failure

/-- A text whose first line stands behind `lead` and whose other lines stand behind `indent`. -/
def indentLines (lead indent text : String) : String :=
  lead ++ ("\n" ++ indent).intercalate ((splitFields '\n' text.toList).map String.ofList)

def numberColumn (number : Nat) : String :=
  let digits := toString number
  String.ofList (List.replicate (5 - digits.length) ' ') ++ digits

def numberedCauses : (number : Nat) → List String → List String
  | _, [] => []
  | number, cause :: rest =>
      indentLines (numberColumn number ++ ": ") "       " cause :: numberedCauses (number + 1) rest

def causeLines : List String → List String
  | [only] => [indentLines "    " "    " only]
  | causes => numberedCauses 0 causes

/-- A report: what was done, then the causes. -/
def reportText (context : String) (causes : List String) : String :=
  let lines := match causes with
    | [] => []
    | causes => "" :: "Caused by:" :: causeLines causes
  String.join ((("Error: " ++ context) :: lines).map (· ++ "\n"))

def Failure.report (failure : Failure) : String :=
  reportText failure.context failure.causes

end KeyStore
