import KeyStore.Text.Unprintable

/-!
# Quoted text

A text between double quotes on one line, as messages show it: quotes and backslashes are escaped,
a few control characters have a letter, and every other character that does not print by itself is
written by its code point.
-/

namespace KeyStore.Quoted

/-- The digits of a number in base 16, in small letters and without leading zeros. -/
def hexDigits (number : Nat) : List Char :=
  Nat.toDigits 16 number

def encodeChar (char : Char) : List Char :=
  if char = '"' then ['\\', '"']
  else if char = '\\' then ['\\', '\\']
  else if char = '\x00' then ['\\', '0']
  else if char = '\t' then ['\\', 't']
  else if char = '\r' then ['\\', 'r']
  else if char = '\n' then ['\\', 'n']
  else if isUnprintable char then ['\\', 'u', '\x7b'] ++ hexDigits char.toNat ++ ['\x7d']
  else [char]

def encode (text : String) : String :=
  String.ofList ('"' :: text.toList.flatMap encodeChar ++ ['"'])

end KeyStore.Quoted
