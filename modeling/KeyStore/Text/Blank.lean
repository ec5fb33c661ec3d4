import KeyStore.Text.CharRanges

/-!
# White space

The Unicode property White_Space, and texts without the white space around them.
-/

namespace KeyStore

def blankBoundaries : List Nat :=
  [0x9, 0xe, 0x20, 0x21, 0x85, 0x86, 0xa0, 0xa1, 0x1680, 0x1681, 0x2000, 0x200b, 0x2028, 0x202a,
    0x202f, 0x2030, 0x205f, 0x2060, 0x3000, 0x3001]

def isBlank (char : Char) : Bool :=
  CharRanges.contains blankBoundaries char

def trimStart (text : List Char) : List Char :=
  text.dropWhile isBlank

def trimEnd (text : List Char) : List Char :=
  (trimStart text.reverse).reverse

def trimBlanks (text : List Char) : List Char :=
  trimStart (trimEnd text)

end KeyStore
