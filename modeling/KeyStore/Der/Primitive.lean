import KeyStore.Der.Element

/-!
# Primitive DER types

Numbers, bit strings, truth values and object identifiers, each with the one content that DER
allows for a value.
-/

namespace KeyStore.Der

def integerTag : UInt8 := 0x02

/-- The content of a natural number: its shortest form, behind a zero byte if the first bit of the
form is set. -/
def encodeNat (number : Nat) : Bytes :=
  match Bytes.ofNat number with
  | first :: rest => if 0x80 ≤ first then 0 :: first :: rest else first :: rest
  | [] => []

/-- The content of an integer in two's complement. A negative number `-(n + 1)` has the complement
of the content of `n`. -/
def encodeInt : Int → Bytes
  | .ofNat number => encodeNat number
  | .negSucc number => (encodeNat number).map (~~~ ·)

def Element.ofInt (number : Int) : Element :=
  ⟨integerTag, encodeInt number⟩

/-- Whether a content is that of a number: it is not empty, and its first nine bits are not all
equal. -/
def IsMinimalInteger : Bytes → Prop
  | [] => False
  | [_] => True
  | first :: second :: _ =>
      ¬(first = 0 ∧ second < 0x80) ∧ ¬(first = 0xff ∧ 0x80 ≤ second)

instance (content : Bytes) : Decidable (IsMinimalInteger content) := by
  match content with
  | [] => exact inferInstanceAs (Decidable False)
  | [_] => exact inferInstanceAs (Decidable True)
  | _ :: _ :: _ => exact inferInstanceAs (Decidable (_ ∧ _))

def Element.nat? (element : Element) : Option Nat :=
  if element.tag = integerTag ∧ IsMinimalInteger element.content ∧
      element.content.headD 0 < 0x80 then
    some (Bytes.toNat element.content)
  else
    none

def bitStringTag : UInt8 := 0x03

def octetStringTag : UInt8 := 0x04

def booleanTag : UInt8 := 0x01

def encodeBits (bytes : Bytes) : Bytes :=
  0 :: bytes

def Element.ofBits (bytes : Bytes) : Element :=
  ⟨bitStringTag, encodeBits bytes⟩

/-- The bytes of the content of a bit string, whatever its unused bits are. There are at most seven
of them, and none in an empty bit string. -/
def bits? : Bytes → Option Bytes
  | [] => none
  | unused :: bytes =>
      if unused ≤ 7 ∧ (bytes = [] → unused = 0) then some bytes else none

def Element.bits? (element : Element) : Option Bytes :=
  if element.tag = bitStringTag then Der.bits? element.content else none

def Element.IsBoolean (element : Element) : Prop :=
  element.tag = booleanTag ∧ (element.content = [0x00] ∨ element.content = [0xff])

instance (element : Element) : Decidable element.IsBoolean :=
  inferInstanceAs (Decidable (_ ∧ _))

end KeyStore.Der
