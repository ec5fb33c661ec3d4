import KeyStore.Base64.Basic
import KeyStore.Text.Blank
import KeyStore.Text.Utf8

/-!
# PEM armour

A block of bytes between a begin line and an end line that carry the same tag. The payload is
standard base64 with padding, in which white space does not count; header lines may stand in front
of it, apart by an empty line. Only the first block of a text is read.
-/

namespace KeyStore.Pem

structure Block where
  tag : String
  contents : Bytes
deriving DecidableEq, Repr

inductive Fault where
  | malformedFraming
  | missingBeginTag
  | missingEndTag
  | mismatchedTags (opening closing : String)
  | invalidHeader (line : String)
  | invalidData (fault : Base64.Fault)
deriving DecidableEq, Repr

def Fault.message : Fault → String
  | .malformedFraming => "malformedframing"
  | .missingBeginTag => "missing BEGIN tag"
  | .missingEndTag => "missing END tag"
  | .mismatchedTags opening closing =>
      "mismatching BEGIN (\"" ++ opening ++ "\") and END (\"" ++ closing ++ "\") tags"
  | .invalidHeader line => "invalid header: " ++ line
  | .invalidData fault => "invalid data: " ++ fault.message

def beginMarker : List Char := "-----BEGIN ".toList

def endMarker : List Char := "-----END ".toList

def closeMarker : List Char := "-----".toList

/-- Looks for a marker of which `expected` is still to come, behind the characters `seen`, the last
one first. A character that does not match is passed over and the whole marker is expected again. -/
def findFrom (marker : List Char) :
    (expected seen text : List Char) → Option (List Char × List Char)
  | [], seen, text => some ((seen.drop marker.length).reverse, text)
  | _ :: _, _, [] => none
  | next :: expected, seen, char :: rest =>
      if char = next then findFrom marker expected (char :: seen) rest
      else findFrom marker marker (char :: seen) rest

def find? (marker text : List Char) : Option (List Char × List Char) :=
  findFrom marker marker [] text

/-- The parts of the first block of a text, uninterpreted. -/
structure Parts where
  opening : List Char
  payload : List Char
  closing : List Char

/-- Space, tab, line feed and carriage return may stand behind a line. -/
def isSpace (char : Char) : Bool :=
  char = ' ' || char = '\t' || char = '\n' || char = '\r'

def parts? (text : List Char) : Option Parts := do
  let (_, text) ← find? beginMarker text
  let (opening, text) ← find? closeMarker text
  let (payload, text) ← find? endMarker (text.dropWhile isSpace)
  let (closing, _) ← find? closeMarker text
  return ⟨opening, payload, closing⟩

def splitHeaders (payload : List Char) : List Char × List Char :=
  match find? ['\n', '\n'] payload with
  | some split => split
  | none =>
      match find? ['\r', '\n', '\r', '\n'] payload with
      | some split => split
      | none => ([], payload)

/-- The lines of a text. A line feed ends a line, together with a carriage return before it. -/
def lines : List Char → List (List Char)
  | [] => []
  | [char] => if char = '\n' then [[]] else [[char]]
  | char :: next :: rest =>
      if char = '\n' then
        [] :: lines (next :: rest)
      else if char = '\r' ∧ next = '\n' then
        lines (next :: rest)
      else
        match lines (next :: rest) with
        | [] => [[char]]
        | line :: others => (char :: line) :: others

def badHeader? (headers : List Char) : Option (List Char) :=
  (lines headers).find? fun line => ¬line.contains ':'

def decodePayload (payload : List Char) : Except Fault Bytes :=
  let (headers, data) := splitHeaders payload
  let symbols := Utf8.encode (String.ofList (data.filter fun char => ¬isBlank char))
  match Base64.decode .standard .required symbols with
  | .error fault => .error (.invalidData fault)
  | .ok contents =>
      match badHeader? headers with
      | some line => .error (.invalidHeader (String.ofList line))
      | none => .ok contents

def Parts.block (parts : Parts) : Except Fault Block :=
  if parts.opening = [] then
    .error .missingBeginTag
  else if parts.closing = [] then
    .error .missingEndTag
  else if parts.opening ≠ parts.closing then
    .error (.mismatchedTags (String.ofList parts.opening) (String.ofList parts.closing))
  else
    match decodePayload parts.payload with
    | .error fault => .error fault
    | .ok contents => .ok ⟨String.ofList parts.opening, contents⟩

def parse (text : String) : Except Fault Block :=
  match parts? text.toList with
  | none => .error .malformedFraming
  | some parts => parts.block

inductive LineEnd where
  | lf
  | crlf
deriving DecidableEq, Repr

def LineEnd.chars : LineEnd → List Char
  | .lf => ['\n']
  | .crlf => ['\r', '\n']

/-- Cuts a text into lines of `width + 1` characters, the last of what is left, and ends each. -/
def cutLines (width : Nat) (lineEnd : LineEnd) (text : List Char) : List Char :=
  match text with
  | [] => []
  | char :: rest =>
      char :: rest.take width ++ lineEnd.chars ++ cutLines width lineEnd (rest.drop width)
termination_by text.length
decreasing_by
  simp only [List.length_drop, List.length_cons]
  omega

/-- The block of a tag and a byte string, its payload in lines of `width + 1` characters. -/
def write (tag : List Char) (width : Nat) (lineEnd : LineEnd) (contents : Bytes) : List Char :=
  let symbols := (Base64.encode .standard .required contents).map Char.ofUInt8
  beginMarker ++ tag ++ closeMarker ++ lineEnd.chars ++ cutLines width lineEnd symbols ++
    endMarker ++ tag ++ closeMarker ++ lineEnd.chars

end KeyStore.Pem
