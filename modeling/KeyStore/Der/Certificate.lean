import KeyStore.Der.PublicKeyInfo
import KeyStore.Der.Time

/-!
# Certificates

The structure of X.509 certificates, as far as it decides whether a byte string is one, and the
public key inside. Names, times, extensions and the signature are checked for their form only.
-/

namespace KeyStore.Der

def contextTag (number : UInt8) : UInt8 := 0xa0 ||| number

def primitiveContextTag (number : UInt8) : UInt8 := 0x80 ||| number

/-- The number of an element that belongs to the class of fields. -/
def Element.contextNumber? (element : Element) : Option UInt8 :=
  if element.tag &&& 0xc0 = 0x80 then some (element.tag &&& 0x1f) else none

/-- Looks for the optional field `number`: fields with lower numbers in front of it are passed
over. Gives the field, if it is there, and the elements behind. -/
def takeField (number : UInt8) : List Element → Option Element × List Element
  | [] => (none, [])
  | element :: rest =>
      match element.contextNumber? with
      | some found =>
          if found = number then (some element, rest)
          else if found < number then takeField number rest
          else (none, element :: rest)
      | none => (none, element :: rest)

def OptionalField (valid : Element → Prop) (field : Option Element) : Prop :=
  ∀ element ∈ field, valid element

instance (valid : Element → Prop) [DecidablePred valid] (field : Option Element) :
    Decidable (OptionalField valid field) := by
  cases field with
  | none => exact isTrue (fun _ member => by contradiction)
  | some element =>
      by_cases holds : valid element
      · exact isTrue (fun _ member => by cases member; exact holds)
      · exact isFalse (fun all => holds (all element rfl))

/-- Whether an element is the field of a version, which is zero, one or two. -/
def IsVersionField (element : Element) : Prop :=
  match element.parts? (contextTag 0) with
  | some [version] => version.nat?.any (· ≤ 2)
  | _ => False

instance (element : Element) : Decidable (IsVersionField element) := by
  unfold IsVersionField
  split <;> infer_instance

/-- Whether an element is a serial number, of any sign and at most 21 bytes. -/
def IsSerialNumber (element : Element) : Prop :=
  element.tag = integerTag ∧ IsMinimalInteger element.content ∧ element.content.length ≤ 21

instance (element : Element) : Decidable (IsSerialNumber element) :=
  inferInstanceAs (Decidable (_ ∧ _))

def IsAlgorithm (element : Element) : Prop :=
  (AlgorithmId.ofElement? element).isSome

instance (element : Element) : Decidable (IsAlgorithm element) :=
  inferInstanceAs (Decidable (_ = true))

/-- Whether an element is an attribute of a name with its value, which may be anything. -/
def IsAttribute (element : Element) : Prop :=
  match element.parts? sequenceTag with
  | some [kind, _] => kind.objectId?.isSome
  | _ => False

instance (element : Element) : Decidable (IsAttribute element) := by
  unfold IsAttribute
  split <;> infer_instance

/-- Whether an element is a set of different attributes, in any order. -/
def IsAttributeSet (element : Element) : Prop :=
  match element.parts? setTag with
  | some members => (∀ member ∈ members, IsAttribute member) ∧ members.Nodup
  | none => False

instance (element : Element) : Decidable (IsAttributeSet element) := by
  unfold IsAttributeSet
  split <;> infer_instance

def IsName (element : Element) : Prop :=
  match element.parts? sequenceTag with
  | some members => ∀ member ∈ members, IsAttributeSet member
  | none => False

instance (element : Element) : Decidable (IsName element) := by
  unfold IsName
  split <;> infer_instance

def IsTime (element : Element) : Prop :=
  element.time?.isSome

instance (element : Element) : Decidable (IsTime element) :=
  inferInstanceAs (Decidable (_ = true))

/-- Whether an element is a period, two times of which either may come first. -/
def IsValidity (element : Element) : Prop :=
  match element.parts? sequenceTag with
  | some [first, last] => IsTime first ∧ IsTime last
  | _ => False

instance (element : Element) : Decidable (IsValidity element) := by
  unfold IsValidity
  split <;> infer_instance

def IsBitString (element : Element) : Prop :=
  element.bits?.isSome

instance (element : Element) : Decidable (IsBitString element) :=
  inferInstanceAs (Decidable (_ = true))

/-- Whether an element is the primitive field `number` with the content of a bit string. -/
def IsUniqueId (number : UInt8) (element : Element) : Prop :=
  element.tag = primitiveContextTag number ∧ (bits? element.content).isSome

instance (number : UInt8) (element : Element) : Decidable (IsUniqueId number element) :=
  inferInstanceAs (Decidable (_ ∧ _))

/-- Whether an element is an extension: a name, perhaps a truth value, and a byte string. -/
def IsExtension (element : Element) : Prop :=
  match element.parts? sequenceTag with
  | some [kind, value] => kind.objectId?.isSome ∧ value.tag = octetStringTag
  | some [kind, critical, value] =>
      kind.objectId?.isSome ∧ critical.IsBoolean ∧ value.tag = octetStringTag
  | _ => False

instance (element : Element) : Decidable (IsExtension element) := by
  unfold IsExtension
  split <;> infer_instance

def IsExtensionList (element : Element) : Prop :=
  match element.parts? sequenceTag with
  | some members => ∀ member ∈ members, IsExtension member
  | none => False

instance (element : Element) : Decidable (IsExtensionList element) := by
  unfold IsExtensionList
  split <;> infer_instance

def IsExtensionField (element : Element) : Prop :=
  match element.parts? (contextTag 3) with
  | some [list] => IsExtensionList list
  | _ => False

instance (element : Element) : Decidable (IsExtensionField element) := by
  unfold IsExtensionField
  split <;> infer_instance

/-- Whether elements are those that may end the signed part: the two unique identifiers and the
extensions. -/
def IsTrailer (elements : List Element) : Prop :=
  let (issuerId, rest) := takeField 1 elements
  let (subjectId, rest) := takeField 2 rest
  let (extensions, rest) := takeField 3 rest
  OptionalField (IsUniqueId 1) issuerId ∧ OptionalField (IsUniqueId 2) subjectId ∧
    OptionalField IsExtensionField extensions ∧ rest = []

instance (elements : List Element) : Decidable (IsTrailer elements) :=
  inferInstanceAs (Decidable (_ ∧ _))

/-- The element of the public key in the signed part of a certificate whose other parts have their
form. -/
def signedKeyElement? (element : Element) : Option Element :=
  match element.parts? sequenceTag with
  | none => none
  | some parts =>
      let (version, rest) := takeField 0 parts
      match rest with
      | serial :: signature :: issuer :: validity :: subject :: key :: trailer =>
          if OptionalField IsVersionField version ∧ IsSerialNumber serial ∧
              IsAlgorithm signature ∧ IsName issuer ∧ IsValidity validity ∧ IsName subject ∧
              IsTrailer trailer then
            some key
          else
            none
      | _ => none

/-- The element of the public key in an element that is, apart from this key, a certificate. -/
def certifiedKeyElement? (element : Element) : Option Element :=
  match element.parts? sequenceTag with
  | some [signed, algorithm, signature] =>
      if IsAlgorithm algorithm ∧ IsBitString signature then signedKeyElement? signed else none
  | _ => none

def certifiedKey? (bytes : Bytes) : Option PublicKeyInfo := do
  let element ← decodeOnly? bytes
  let key ← certifiedKeyElement? element
  PublicKeyInfo.ofElement? key

end KeyStore.Der
