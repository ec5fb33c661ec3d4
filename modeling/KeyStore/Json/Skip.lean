import KeyStore.Json.Number
import KeyStore.Json.Text

/-!
# Values that are passed over

A member that a record does not know may hold any JSON value, nested to any depth. Such a value has
to be well-formed and is not looked at any further.

Each array, object and member takes at least one character, so the length of a text is a sufficient
budget for passing over a value at its start.
-/

namespace KeyStore.Json

/-- What encloses a value that is passed over. -/
inductive Frame where
  | list
  | object
deriving DecidableEq, Repr

def Frame.close : Frame → Char
  | .list => ']'
  | .object => '\x7d'

def Frame.endCause : Frame → Cause
  | .list => .endInList
  | .object => .endInObject

/-- The cause of a fault when neither a comma nor the end follows in a frame. -/
def Frame.separatorCause : Frame → Cause
  | .list => .expectedCommaOrBracket
  | .object => .expectedCommaOrBrace

def skipName (text : List Char) : Except Fault (List Char) :=
  match skipBlanks text with
  | '"' :: rest =>
      match skipText rest with
      | .ok behind => readColon behind
      | .error fault => .error fault
  | [] => faultHere .endInObject []
  | rest => faultPast .keyNotString rest

/-- The text behind a value without parts that starts with `char`. -/
def skipScalar (char : Char) (rest : List Char) : Except Fault (List Char) :=
  if char = 'n' then readIdent ['u', 'l', 'l'] rest
  else if char = 't' then readIdent ['r', 'u', 'e'] rest
  else if char = 'f' then readIdent ['a', 'l', 's', 'e'] rest
  else if char = '-' then skipNumber rest
  else if isDigit char then skipNumber (char :: rest)
  else if char = '"' then skipText rest
  else faultPast .expectedValue (char :: rest)

mutual

def skipValue : (budget : Nat) → List Char → Except Fault (List Char)
  | 0, _ => .error ⟨.endInValue, 0⟩
  | budget + 1, text =>
      match skipBlanks text with
      | [] => faultHere .endInValue []
      | char :: rest =>
          if char = '[' then skipParts budget .list true rest
          else if char = '\x7b' then skipParts budget .object true rest
          else skipScalar char rest

/-- The text behind the parts of an array or object and its end. A comma is taken only behind a
part. -/
def skipParts : (budget : Nat) → Frame → (first : Bool) → List Char → Except Fault (List Char)
  | 0, _, _, _ => .error ⟨.endInValue, 0⟩
  | budget + 1, frame, first, text =>
      match skipBlanks text with
      | [] => faultHere frame.endCause []
      | char :: rest =>
          if char = frame.close then .ok rest
          else if first then skipPart budget frame (char :: rest)
          else if char = ',' then skipPart budget frame rest
          else faultPast frame.separatorCause (char :: rest)

/-- The text behind one part of an array or object, the parts that follow it, and the end. -/
def skipPart : (budget : Nat) → Frame → List Char → Except Fault (List Char)
  | 0, _, _ => .error ⟨.endInValue, 0⟩
  | budget + 1, frame, text => do
      let value ← match frame with
        | .list => .ok text
        | .object => skipName text
      let behind ← skipValue budget value
      skipParts budget frame false behind

end

/-- A budget that is enough for a text: three calls for each character. -/
def skipBudget (text : List Char) : Nat :=
  3 * text.length + 3

def skip (text : List Char) : Except Fault (List Char) :=
  skipValue (skipBudget text) text

end KeyStore.Json
