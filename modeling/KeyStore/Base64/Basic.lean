import KeyStore.Bytes

/-!
# Base64

Groups of three bytes are written as four symbols of six bits each; a last group of one or two
bytes takes two or three symbols. An alphabet fixes the symbols of the two values that are neither
letters nor digits, and a padding rule says whether a short last group is filled up with `=`.

Reading is canonical: the unused bits of the last symbol must be zero. A refusal names the first
fault in the order of `Base64.decode`: a stray last byte, the full groups from left to right, the
last group, its length, its padding, its unused bits.
-/

namespace KeyStore

namespace Base64

structure Alphabet where
  symbol62 : UInt8
  symbol63 : UInt8

def Alphabet.standard : Alphabet := ⟨0x2b, 0x2f⟩

/-- The alphabet with `-` and `_`, whose symbols need no escape in an address. -/
def Alphabet.webSafe : Alphabet := ⟨0x2d, 0x5f⟩

def pad : UInt8 := 0x3d

/-- The symbol of a value below 64: capital letters, small letters, digits, then the two symbols
of the alphabet. -/
def Alphabet.symbol (alphabet : Alphabet) (value : Nat) : UInt8 :=
  if value < 26 then UInt8.ofNat (0x41 + value)
  else if value < 52 then UInt8.ofNat (0x61 + (value - 26))
  else if value < 62 then UInt8.ofNat (0x30 + (value - 52))
  else if value = 62 then alphabet.symbol62
  else alphabet.symbol63

/-- The value of a symbol, or `none` for a byte outside the alphabet. -/
def Alphabet.value? (alphabet : Alphabet) (byte : UInt8) : Option Nat :=
  if 0x41 ≤ byte ∧ byte ≤ 0x5a then some (byte.toNat - 0x41)
  else if 0x61 ≤ byte ∧ byte ≤ 0x7a then some (byte.toNat - 0x61 + 26)
  else if 0x30 ≤ byte ∧ byte ≤ 0x39 then some (byte.toNat - 0x30 + 52)
  else if byte = alphabet.symbol62 then some 62
  else if byte = alphabet.symbol63 then some 63
  else none

/-- Whether the last group is filled up to four bytes. -/
inductive Padding where
  | required
  | absent
deriving DecidableEq, Repr

/-- The bytes that follow the symbols of a last group which lacks `count` symbols. -/
def Padding.fill : Padding → (count : Nat) → Bytes
  | .required, count => List.replicate count pad
  | .absent, _ => []

/-- The symbols of a byte string, with the padding that the rule asks for. -/
def encode (alphabet : Alphabet) (padding : Padding) : Bytes → Bytes
  | [] => []
  | [a] =>
      [alphabet.symbol (a.toNat / 4), alphabet.symbol (a.toNat % 4 * 16)] ++ padding.fill 2
  | [a, b] =>
      [alphabet.symbol (a.toNat / 4),
        alphabet.symbol (a.toNat % 4 * 16 + b.toNat / 16),
        alphabet.symbol (b.toNat % 16 * 4)] ++ padding.fill 1
  | a :: b :: c :: rest =>
      alphabet.symbol (a.toNat / 4) ::
        alphabet.symbol (a.toNat % 4 * 16 + b.toNat / 16) ::
        alphabet.symbol (b.toNat % 16 * 4 + c.toNat / 64) ::
        alphabet.symbol (c.toNat % 64) :: encode alphabet padding rest

/-- Why a byte string is not base64. Offsets count bytes from the start of the string. -/
inductive Fault where
  | invalidSymbol (byte : UInt8) (offset : Nat)
  | invalidLastSymbol (byte : UInt8) (offset : Nat)
  /-- A last group with fewer than two symbols; `length` counts the bytes up to its end. -/
  | invalidLength (length : Nat)
  | invalidPadding
deriving DecidableEq, Repr

def Fault.message : Fault → String
  | .invalidSymbol byte offset => s!"Invalid symbol {byte.toNat}, offset {offset}."
  | .invalidLastSymbol byte offset => s!"Invalid last symbol {byte.toNat}, offset {offset}."
  | .invalidLength length => s!"Invalid input length: {length}"
  | .invalidPadding => "Invalid padding"

def readSymbol (alphabet : Alphabet) (offset : Nat) (byte : UInt8) : Except Fault Nat :=
  match alphabet.value? byte with
  | some value => .ok value
  | none => .error (.invalidSymbol byte offset)

/-- The values of symbols that stand side by side from `offset` on. -/
def readSymbols (alphabet : Alphabet) : (offset : Nat) → Bytes → Except Fault (List Nat)
  | _, [] => .ok []
  | offset, byte :: rest => do
      let value ← readSymbol alphabet offset byte
      let values ← readSymbols alphabet (offset + 1) rest
      return value :: values

/-- The bytes of a group of two to four symbol values, and what remains of the last symbol. Any
other number of values has no bytes. -/
def groupBytes : List Nat → Bytes × Nat
  | [v, w] => ([UInt8.ofNat (v * 4 + w / 16)], w % 16)
  | [v, w, x] => ([UInt8.ofNat (v * 4 + w / 16), UInt8.ofNat (w % 16 * 16 + x / 4)], x % 4)
  | [v, w, x, y] =>
      ([UInt8.ofNat (v * 4 + w / 16), UInt8.ofNat (w % 16 * 16 + x / 4),
        UInt8.ofNat (x % 4 * 64 + y)], 0)
  | _ => ([], 0)

/-- Whether `symbols` symbols and `pads` padding bytes make a last group under the rule. -/
def Padding.Fits : Padding → (symbols pads : Nat) → Prop
  | .required, symbols, pads => (symbols + pads) % 4 = 0
  | .absent, _, pads => pads = 0

instance (padding : Padding) (symbols pads : Nat) : Decidable (padding.Fits symbols pads) := by
  cases padding <;> simp only [Padding.Fits] <;> infer_instance

/-- Reads the last group, of at most four bytes, that starts at `offset`. -/
def decodeLast (alphabet : Alphabet) (padding : Padding) (offset : Nat) (group : Bytes) :
    Except Fault Bytes :=
  let symbols := group.takeWhile (· ≠ pad)
  let pads := group.dropWhile (· ≠ pad)
  match readSymbols alphabet offset symbols with
  | .error fault => .error fault
  | .ok values =>
      if pads ≠ [] ∧ (symbols.length < 2 ∨ pads.any (· ≠ pad)) then
        .error (.invalidSymbol pad (offset + symbols.length))
      else if group ≠ [] ∧ symbols.length < 2 then
        .error (.invalidLength (offset + symbols.length))
      else if ¬padding.Fits symbols.length pads.length then
        .error .invalidPadding
      else if (groupBytes values).2 ≠ 0 then
        .error (.invalidLastSymbol (symbols.getLastD pad) (offset + symbols.length - 1))
      else
        .ok (groupBytes values).1

/-- Reads the groups from `offset` on: full groups while more bytes follow, then the last group. -/
def decodeGroups (alphabet : Alphabet) (padding : Padding) :
    (offset : Nat) → Bytes → Except Fault Bytes
  | offset, a :: b :: c :: d :: e :: rest => do
      let values ← readSymbols alphabet offset [a, b, c, d]
      let bytes ← decodeGroups alphabet padding (offset + 4) (e :: rest)
      return (groupBytes values).1 ++ bytes
  | offset, group => decodeLast alphabet padding offset group

/-- Refuses a last byte outside the alphabet that would stand alone in its group. -/
def checkLastByte (alphabet : Alphabet) (encoded : Bytes) : Except Fault Unit :=
  match encoded.getLast? with
  | some byte =>
      if encoded.length % 4 = 1 ∧ byte ≠ pad ∧ alphabet.value? byte = none then
        .error (.invalidSymbol byte (encoded.length - 1))
      else
        .ok ()
  | none => .ok ()

def decode (alphabet : Alphabet) (padding : Padding) (encoded : Bytes) : Except Fault Bytes := do
  checkLastByte alphabet encoded
  decodeGroups alphabet padding 0 encoded

end Base64

end KeyStore
