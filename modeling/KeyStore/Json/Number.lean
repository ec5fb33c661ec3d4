import KeyStore.Json.Blank

/-!
# Numbers of JSON

A number without fraction and exponent that fits 64 bits is an integer; every other number, and
negative zero, is read into the double precision format. Of the digits of such a number only those
count that fit an unsigned word of 64 bits; the others move the decimal point.
-/

namespace KeyStore.Json

inductive Number where
  /-- A number from zero to `2 ^ 64 - 1`. -/
  | natural (value : Nat)
  /-- The negative of a number from one to `2 ^ 63`. -/
  | negation (magnitude : Nat)
  | floating (negative : Bool) (magnitude : Binary64)
deriving DecidableEq, Repr

/-- A number as the value that stands where another is asked for. -/
def Number.found : Number → Found
  | .natural value => .integer value
  | .negation magnitude => .integer (-(magnitude : Int))
  | .floating negative magnitude => .floating negative magnitude

def isDigit (char : Char) : Bool :=
  '0' ≤ char && char ≤ '9'

def digitValue (char : Char) : Nat :=
  char.toNat - 0x30

/-- Appends digits to a number while it stays within `limit`, and gives the digits that are left
over from the first one that does not fit. -/
def appendDigits (limit : Nat) : (number : Nat) → List Char → Nat × List Char
  | number, [] => (number, [])
  | number, digit :: rest =>
      let longer := number * 10 + digitValue digit
      if longer ≤ limit then appendDigits limit longer rest else (number, digit :: rest)

def maxSignificand : Nat := Nat.pow 2 64 - 1

/-- The greatest exponent that is read digit by digit. -/
def maxWrittenExponent : Nat := Nat.pow 2 31 - 1

/-- The number of a significand and an exponent of ten, behind which `rest` is unread. -/
def floatingNumber (negative : Bool) (significand : Nat) (exponent : Int) (rest : List Char) :
    Except Fault (Number × List Char) :=
  match Binary64.ofDecimal? significand exponent with
  | some magnitude => .ok (.floating negative magnitude, rest)
  | none => faultHere .numberOutOfRange rest

def exponentSign : List Char → Bool × List Char
  | '+' :: rest => (false, rest)
  | '-' :: rest => (true, rest)
  | text => (false, text)

/-- Reads an exponent behind its letter, for a significand that stands `shift` places higher. -/
def readExponent (negative : Bool) (significand : Nat) (shift : Int) (text : List Char) :
    Except Fault (Number × List Char) :=
  let (downward, unsigned) := exponentSign text
  let digits := unsigned.takeWhile isDigit
  let rest := unsigned.dropWhile isDigit
  match unsigned, digits with
  | [], _ => faultHere .endInValue []
  | _, [] => faultPast .invalidNumber unsigned
  | _, _ =>
      match appendDigits maxWrittenExponent 0 digits with
      | (exponent, []) =>
          floatingNumber negative significand
            (if downward then shift - exponent else shift + exponent) rest
      | (_, _ :: left) =>
          if significand ≠ 0 ∧ ¬downward then
            faultHere .numberOutOfRange (left ++ rest)
          else
            .ok (.floating negative .zero, rest)

def readExponent? (negative : Bool) (significand : Nat) (shift : Int) (text : List Char) :
    Except Fault (Number × List Char) :=
  match text with
  | 'e' :: rest => readExponent negative significand shift rest
  | 'E' :: rest => readExponent negative significand shift rest
  | _ => floatingNumber negative significand shift text

/-- Reads a fraction behind its point, for a significand that stands `shift` places higher. -/
def readFraction (negative : Bool) (significand : Nat) (shift : Int) (text : List Char) :
    Except Fault (Number × List Char) :=
  let digits := text.takeWhile isDigit
  let rest := text.dropWhile isDigit
  match digits, rest with
  | [], [] => faultHere .endInValue []
  | [], _ => faultPast .invalidNumber rest
  | _, _ =>
      let (longer, left) := appendDigits maxSignificand significand digits
      readExponent? negative longer (shift - Int.ofNat (digits.length - left.length)) rest

/-- An integer, or the floating number that it is when it does not fit. -/
def integerNumber (negative : Bool) (value : Nat) : Except Fault Number :=
  if negative = false then
    .ok (.natural value)
  else if 0 < value ∧ value ≤ Nat.pow 2 63 then
    .ok (.negation value)
  else
    match Binary64.ofDecimal? value 0 with
    | some magnitude => .ok (.floating true magnitude)
    | none => .error ⟨.numberOutOfRange, 0⟩

/-- Reads what follows the whole part of a number, which is `significand` with `left` further digits
that did not fit. -/
def readAfterWhole (negative : Bool) (significand left : Nat) (text : List Char) :
    Except Fault (Number × List Char) :=
  match text with
  | '.' :: rest => readFraction negative significand left rest
  | 'e' :: rest => readExponent negative significand left rest
  | 'E' :: rest => readExponent negative significand left rest
  | _ =>
      if left = 0 then do
        let number ← integerNumber negative significand
        return (number, text)
      else
        floatingNumber negative significand left text

def readNumber (negative : Bool) (text : List Char) : Except Fault (Number × List Char) :=
  match text with
  | [] => faultHere .endInValue []
  | '0' :: rest =>
      match rest with
      | next :: _ =>
          if isDigit next then faultPast .invalidNumber rest
          else readAfterWhole negative 0 0 rest
      | [] => readAfterWhole negative 0 0 rest
  | char :: _ =>
      if isDigit char then
        let digits := text.takeWhile isDigit
        let (significand, left) := appendDigits maxSignificand 0 digits
        readAfterWhole negative significand left.length (text.dropWhile isDigit)
      else
        faultPast .invalidNumber text

def skipExponent (text : List Char) : Except Fault (List Char) :=
  let unsigned := (exponentSign text).2
  match unsigned with
  | char :: rest =>
      if isDigit char then .ok (rest.dropWhile isDigit) else faultPast .invalidNumber unsigned
  | [] => faultHere .invalidNumber []

def skipExponent? : List Char → Except Fault (List Char)
  | 'e' :: rest => skipExponent rest
  | 'E' :: rest => skipExponent rest
  | text => .ok text

def skipAfterWhole : List Char → Except Fault (List Char)
  | '.' :: rest =>
      match rest with
      | char :: _ =>
          if isDigit char then skipExponent? (rest.dropWhile isDigit)
          else faultPast .invalidNumber rest
      | [] => faultHere .invalidNumber []
  | text => skipExponent? text

def skipNumber (text : List Char) : Except Fault (List Char) :=
  match text with
  | [] => faultHere .invalidNumber []
  | '0' :: rest =>
      match rest with
      | next :: _ =>
          if isDigit next then faultPast .invalidNumber rest else skipAfterWhole rest
      | [] => .ok []
  | char :: rest =>
      if isDigit char then skipAfterWhole (rest.dropWhile isDigit)
      else faultPast .invalidNumber text

end KeyStore.Json
