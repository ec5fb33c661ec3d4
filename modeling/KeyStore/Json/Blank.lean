import KeyStore.Json.Fault

/-!
# Blanks, literals and tokens of JSON

The parts of a JSON text that carry no value of their own.
-/

namespace KeyStore.Json

def isSeparator (char : Char) : Bool :=
  char = ' ' || char = '\t' || char = '\n' || char = '\r'

def skipBlanks (text : List Char) : List Char :=
  text.dropWhile isSeparator

/-- The text behind the rest of a literal, whose first character has been read. -/
def readIdent : (ident text : List Char) → Except Fault (List Char)
  | [], text => .ok text
  | _ :: _, [] => faultHere .endInValue []
  | expected :: ident, char :: rest =>
      if char = expected then readIdent ident rest else faultPast .expectedIdent (char :: rest)

def readColon (text : List Char) : Except Fault (List Char) :=
  match skipBlanks text with
  | ':' :: rest => .ok rest
  | [] => faultHere .endInObject []
  | rest => faultPast .expectedColon rest

end KeyStore.Json
