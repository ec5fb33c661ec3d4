import KeyStore.Pattern.Basic
import KeyStore.Pattern.Layout
import KeyStore.Text.HexDigit

/-!
# Escapes in patterns

A backslash takes away the meaning of a sign, or gives one to a letter.
-/

namespace KeyStore.Pattern

def codeLengths : List (Char × Nat) := [('x', 2), ('u', 4), ('U', 8)]

/-- Reads a number of `length` more digits in base 16, of which `number` has been read. Layout may
stand around each digit. -/
def readCode? (isVerbose : Bool) :
    (length number : Nat) → List Char → Option (Nat × List Char)
  | 0, number, text => some (number, skipLayout isVerbose text)
  | length + 1, number, text =>
      match skipLayout isVerbose text with
      | [] => none
      | digit :: rest => do
          readCode? isVerbose length (number * 16 + (← hexValue? digit)) rest

def readCoded? (isVerbose : Bool) (length : Nat) (text : List Char) :
    Option (Sign × List Char) := do
  let (code, rest) ← readCode? isVerbose length 0 text
  if code.isValidChar then return (.literal ⟨Char.ofNat code, length = 2⟩, rest) else none

def letteredChars : List (Char × Char) :=
  [('a', '\x07'), ('f', '\x0c'), ('t', '\t'), ('n', '\n'), ('r', '\r'), ('v', '\x0b')]

/-- What a single character stands for behind a backslash. Of the signs only the angle brackets have
a meaning there. -/
def Sign.escaped? (char : Char) : Option Sign :=
  match letteredChars.lookup char with
  | some lettered => some (.literal (.plain lettered))
  | none =>
      if char = 'A' ∨ char = 'z' then some .edge
      else if char = 'b' ∨ char = 'B' ∨ char = '<' ∨ char = '>' then some .wordEdge
      else if char = 'd' ∨ char = 's' ∨ char = 'w' then some (.kind false)
      else if char = 'D' ∨ char = 'S' ∨ char = 'W' then some (.kind true)
      else if char.toNat < 0x80 ∧ ¬char.isAlphanum then some (.literal (.plain char))
      else none

def readEscape? (isVerbose : Bool) : List Char → Option (Sign × List Char)
  | [] => none
  | char :: rest =>
      match codeLengths.lookup char with
      | some length => readCoded? isVerbose length rest
      | none => (Sign.escaped? char).map fun sign => (sign, rest)

end KeyStore.Pattern
