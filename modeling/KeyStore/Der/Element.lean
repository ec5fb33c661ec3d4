import KeyStore.Bytes

/-!
# DER elements

The distinguished encoding of ASN.1 writes a value as a tag of one byte, the length of the content
in the fewest bytes, and the content. `Element` is one such triple without its length; the content
of a constructed element is again a row of elements.
-/

namespace KeyStore.Der

/-- A tag and a content. -/
@[ext] structure Element where
  tag : UInt8
  content : Bytes
deriving DecidableEq, Repr

def universalTags : List UInt8 :=
  [0x01, 0x02, 0x03, 0x04, 0x05, 0x06, 0x09, 0x0a, 0x0c, 0x12, 0x13, 0x14, 0x15, 0x16, 0x17, 0x18,
    0x1a, 0x1e, 0x30, 0x31]

/-- A tag is known if it is that of a known universal type, or belongs to another class and has its
number, below 31, in the same byte. -/
def IsKnownTag (tag : UInt8) : Prop :=
  tag ∈ universalTags ∨ (0x40 ≤ tag ∧ tag &&& 0x1f ≠ 0x1f)

instance (tag : UInt8) : Decidable (IsKnownTag tag) :=
  inferInstanceAs (Decidable (_ ∨ _))

/-- The first length that is too large. -/
def lengthLimit : Nat := Nat.pow 2 28

/-- The form of a length: one byte below 128, else the number of its bytes and the bytes. -/
def encodeLength (length : Nat) : Bytes :=
  if length < 0x80 then
    [UInt8.ofNat length]
  else
    let digits := Bytes.ofNat length
    UInt8.ofNat (0x80 + digits.length) :: digits

def Element.encode (element : Element) : Bytes :=
  element.tag :: encodeLength element.content.length ++ element.content

def encodeAll (elements : List Element) : Bytes :=
  elements.flatMap Element.encode

/-- Reads a length in its only form, and gives the bytes behind it. -/
def decodeLength? : Bytes → Option (Nat × Bytes)
  | [] => none
  | first :: rest =>
      if first < 0x80 then
        some (first.toNat, rest)
      else
        let count := first.toNat - 0x80
        let length := Bytes.toNat (rest.take count)
        if 1 ≤ count ∧ count ≤ 4 ∧ length < lengthLimit ∧
            encodeLength length = first :: rest.take count then
          some (length, rest.drop count)
        else
          none

/-- Reads an element with a known tag, and gives the bytes behind it. -/
def decode? : Bytes → Option (Element × Bytes)
  | [] => none
  | tag :: rest =>
      if IsKnownTag tag then
        match decodeLength? rest with
        | some (length, rest) =>
            if length ≤ rest.length then
              some (⟨tag, rest.take length⟩, rest.drop length)
            else
              none
        | none => none
      else
        none

theorem decodeLength?_length {bytes rest : Bytes} {length : Nat}
    (read : decodeLength? bytes = some (length, rest)) :
    rest.length < bytes.length := by
  unfold decodeLength? at read
  split at read
  · contradiction
  · next first tail =>
      simp only at read
      split at read
      · simp only [Option.some.injEq, Prod.mk.injEq] at read
        simp [← read.2]
      · split at read
        · simp only [Option.some.injEq, Prod.mk.injEq] at read
          rw [← read.2]
          simp only [List.length_drop, List.length_cons]
          omega
        · contradiction

theorem decode?_length {bytes rest : Bytes} {element : Element}
    (read : decode? bytes = some (element, rest)) :
    rest.length < bytes.length := by
  unfold decode? at read
  split at read
  · contradiction
  · next tag tail =>
      split at read
      · split at read
        · next length behind lengthRead =>
            have shorter := decodeLength?_length lengthRead
            split at read
            · simp only [Option.some.injEq, Prod.mk.injEq] at read
              rw [← read.2]
              simp only [List.length_drop, List.length_cons]
              omega
            · contradiction
        · contradiction
      · contradiction

def decodeAll? (bytes : Bytes) : Option (List Element) :=
  if bytes = [] then
    some []
  else
    match read : decode? bytes with
    | none => none
    | some (element, rest) =>
        have := decode?_length read
        match decodeAll? rest with
        | none => none
        | some elements => some (element :: elements)
termination_by bytes.length

/-- The only element of a byte string, which is itself below the limit. -/
def decodeOnly? (bytes : Bytes) : Option Element :=
  if bytes.length < lengthLimit then
    match decode? bytes with
    | some (element, []) => some element
    | _ => none
  else
    none

def sequenceTag : UInt8 := 0x30

def setTag : UInt8 := 0x31

def Element.ofParts (tag : UInt8) (parts : List Element) : Element :=
  ⟨tag, encodeAll parts⟩

def Element.parts? (tag : UInt8) (element : Element) : Option (List Element) :=
  if element.tag = tag then decodeAll? element.content else none

end KeyStore.Der
