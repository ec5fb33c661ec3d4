import KeyStore.Decimal.Shortest
import KeyStore.Text.Quoted
import KeyStore.Text.Utf8

/-!
# Faults in JSON texts

Why a text is not the JSON form of a value that is asked for. A reading that fails knows only how
many bytes it has left unread; `Fault.locate` turns this number into a line and a column of the
whole text.
-/

namespace KeyStore.Json

inductive Found where
  | null
  | flag (value : Bool)
  /-- A number without fraction and exponent that fits 64 bits. -/
  | integer (value : Int)
  /-- Any other number. -/
  | floating (negative : Bool) (magnitude : Binary64)
  | text (value : List Char)
  | sequence
  | map
deriving DecidableEq, Repr

def Found.message : Found → String
  | .null => "null"
  | .flag value => "boolean `" ++ (if value then "true" else "false") ++ "`"
  | .integer value => "integer `" ++ toString value ++ "`"
  | .floating negative magnitude =>
      "floating point `" ++ (if negative then "-" else "") ++ Decimal.text magnitude ++ "`"
  | .text value => "string " ++ Quoted.encode (String.ofList value)
  | .sequence => "sequence"
  | .map => "map"

/-- What is wrong with a text. -/
inductive Cause where
  | endInValue
  | endInList
  | endInObject
  | endInString
  | expectedValue
  | expectedIdent
  | expectedColon
  | expectedCommaOrBrace
  | expectedCommaOrBracket
  | trailingComma
  | trailingCharacters
  | keyNotString
  | invalidNumber
  | numberOutOfRange
  | invalidEscape
  | loneSurrogate
  | unexpectedEndOfHexEscape
  | controlCharacter
  | invalidType (found : Found) (expected : String)
  | invalidValue (found : Found) (expected : String)
  | unknownTag (tag : List Char) (known : List String)
  | missingField (name : String)
  | duplicateField (name : String)
  | invalidLength (length : Nat) (title : String) (fields : Nat)
deriving DecidableEq, Repr

def knownMessage : List String → String
  | [] => "there are no variants"
  | [only] => "expected `" ++ only ++ "`"
  | [first, second] => "expected `" ++ first ++ "` or `" ++ second ++ "`"
  | tags => "expected one of " ++ ", ".intercalate (tags.map fun tag => "`" ++ tag ++ "`")

def Cause.message : Cause → String
  | .endInValue => "EOF while parsing a value"
  | .endInList => "EOF while parsing a list"
  | .endInObject => "EOF while parsing an object"
  | .endInString => "EOF while parsing a string"
  | .expectedValue => "expected value"
  | .expectedIdent => "expected ident"
  | .expectedColon => "expected `:`"
  | .expectedCommaOrBrace => "expected `,` or `\x7d`"
  | .expectedCommaOrBracket => "expected `,` or `]`"
  | .trailingComma => "trailing comma"
  | .trailingCharacters => "trailing characters"
  | .keyNotString => "key must be a string"
  | .invalidNumber => "invalid number"
  | .numberOutOfRange => "number out of range"
  | .invalidEscape => "invalid escape"
  | .loneSurrogate => "lone leading surrogate in hex escape"
  | .unexpectedEndOfHexEscape => "unexpected end of hex escape"
  | .controlCharacter => "control character (\\u0000-\\u001F) found while parsing a string"
  | .invalidType found expected =>
      "invalid type: " ++ found.message ++ ", expected " ++ expected
  | .invalidValue found expected =>
      "invalid value: " ++ found.message ++ ", expected " ++ expected
  | .unknownTag tag known =>
      "unknown variant `" ++ String.ofList tag ++ "`, " ++ knownMessage known
  | .missingField name => "missing field `" ++ name ++ "`"
  | .duplicateField name => "duplicate field `" ++ name ++ "`"
  | .invalidLength length title fields =>
      "invalid length " ++ toString length ++ ", expected struct " ++ title ++ " with " ++
        toString fields ++ (if fields = 1 then " element" else " elements")

/-- A cause, and the number of bytes that are unread where it shows. -/
structure Fault where
  cause : Cause
  /-- The number of bytes from the place of the fault to the end of the text. -/
  unread : Nat
deriving DecidableEq, Repr

/-- A cause with its line, counted from one, and its column, the number of bytes of that line that
lie before the place of the fault. -/
structure LocatedFault where
  cause : Cause
  line : Nat
  column : Nat
deriving DecidableEq, Repr

def lineFeed : UInt8 := 0x0a

/-- Finds the line and column of a fault in the text that was read. -/
def Fault.locate (text : String) (fault : Fault) : LocatedFault :=
  let bytes := Utf8.encode text
  let seen := bytes.take (bytes.length - fault.unread)
  { cause := fault.cause
    line := seen.count lineFeed + 1
    column := (seen.reverse.takeWhile (· ≠ lineFeed)).length }

def LocatedFault.message (fault : LocatedFault) : String :=
  s!"{fault.cause.message} at line {fault.line} column {fault.column}"

def byteLength (text : List Char) : Nat :=
  text.foldr (fun char length => char.utf8Size + length) 0

def Fault.here (cause : Cause) (unread : List Char) : Fault :=
  ⟨cause, byteLength unread⟩

/-- A cause behind the first byte of the unread text, or at its end if nothing is unread. -/
def Fault.past (cause : Cause) (unread : List Char) : Fault :=
  ⟨cause, byteLength unread - 1⟩

def faultHere {α : Type} (cause : Cause) (unread : List Char) : Except Fault α :=
  .error (.here cause unread)

/-- Fails behind the first byte of the unread text, or at its end if nothing is unread. -/
def faultPast {α : Type} (cause : Cause) (unread : List Char) : Except Fault α :=
  .error (.past cause unread)

end KeyStore.Json
