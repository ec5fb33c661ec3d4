import KeyStore.Der.PublicKeyInfo
import KeyStore.Rsa.Key

/-!
# Encoded RSA keys

The PKCS #1 forms of RSA keys: a sequence of two numbers for a public key, and of nine numbers for a
private key with two factors. Reading separates a byte string that has not the form at all from one
whose numbers make no key.
-/

namespace KeyStore.Rsa

open Der

inductive Fault where
  | privateForm
  /-- The numbers of a private key do not belong together, or it has more than two factors. -/
  | privateNumbers
  | publicForm
  /-- The numbers of a public key do not go together, or the modulus is too long. -/
  | publicNumbers
deriving DecidableEq, Repr

def formDetail : String := "not an encoding of the expected structure"

def Fault.message : Fault → String
  | .privateForm => "PKCS#8 ASN.1 error: " ++ formDetail
  | .privateNumbers => "PKCS#8 cryptographic key data malformed"
  | .publicForm => "public key error: ASN.1 error: " ++ formDetail
  | .publicNumbers => "public key error: SPKI cryptographic key data malformed"

structure PublicNumbers where
  modulus : Nat
  exponent : Nat
deriving DecidableEq, Repr

def PublicNumbers.decode? (bytes : Bytes) : Option PublicNumbers := do
  let element ← decodeOnly? bytes
  let parts ← element.parts? sequenceTag
  match ← parts.mapM Element.nat? with
  | [modulus, exponent] => some ⟨modulus, exponent⟩
  | _ => none

def publicForm (modulus exponent : Int) : Element :=
  .ofParts sequenceTag [.ofInt modulus, .ofInt exponent]

def maxSize : Nat := 4096

def PublicNumbers.key? (numbers : PublicNumbers) : Option PublicKey :=
  if valid : IsPublicPair numbers.modulus numbers.exponent then
    if bitLength numbers.modulus ≤ maxSize then
      some ⟨numbers.modulus, numbers.exponent, valid⟩
    else
      none
  else
    none

def PublicKey.decode (bytes : Bytes) : Except Fault PublicKey :=
  match PublicNumbers.decode? bytes with
  | none => .error .publicForm
  | some numbers =>
      match numbers.key? with
      | none => .error .publicNumbers
      | some key => .ok key

structure PrivateNumbers where
  modulus : Nat
  exponent : Nat
  privateExponent : Nat
  p : Nat
  q : Nat
  exponentP : Nat
  exponentQ : Nat
  coefficient : Nat
deriving DecidableEq, Repr

def PrivateNumbers.ofElements? (elements : List Element) : Option PrivateNumbers := do
  match ← elements.mapM Element.nat? with
  | [modulus, exponent, privateExponent, p, q, exponentP, exponentQ, coefficient] =>
      some ⟨modulus, exponent, privateExponent, p, q, exponentP, exponentQ, coefficient⟩
  | _ => none

/-- Whether an element holds three numbers: a further factor, its exponent and its coefficient. -/
def isFactor (element : Element) : Bool :=
  match (element.parts? sequenceTag).bind (List.mapM Element.nat?) with
  | some [_, _, _] => true
  | _ => false

def isFactorList (element : Element) : Bool :=
  match element.parts? sequenceTag with
  | some members => members.all isFactor
  | none => false

/-- An encoded private key: with two factors, or with more of them. -/
inductive PrivateForm where
  | twoFactors (numbers : PrivateNumbers)
  | moreFactors
deriving DecidableEq, Repr

/-- The form of an encoded private key. Version zero has no list of further factors, version one
has. -/
def PrivateForm.decode? (bytes : Bytes) : Option PrivateForm := do
  let element ← decodeOnly? bytes
  let parts ← element.parts? sequenceTag
  let version ← (← parts.head?).nat?
  let numbers ← PrivateNumbers.ofElements? (parts.drop 1 |>.take 8)
  match version, parts.drop 9 with
  | 0, [] => some (.twoFactors numbers)
  | 1, [list] => if isFactorList list then some .moreFactors else none
  | _, _ => none

/-- The form of a private key, with any integers where the three numbers for the Chinese remainder
theorem stand. -/
def PrivateKey.form (key : PrivateKey) (exponentP exponentQ coefficient : Int) : Element :=
  .ofParts sequenceTag
    [.ofInt 0, .ofInt key.publicKey.modulus, .ofInt key.publicKey.exponent, .ofInt key.exponent,
      .ofInt key.p, .ofInt key.q, .ofInt exponentP, .ofInt exponentQ, .ofInt coefficient]

/-- The private key of the numbers. The three numbers for the Chinese remainder theorem do not
count: they follow from the others. -/
def PrivateNumbers.key? (numbers : PrivateNumbers) : Option PrivateKey :=
  if publicValid : IsPublicPair numbers.modulus numbers.exponent then
    if privateValid : IsPrivatePart numbers.modulus numbers.exponent numbers.privateExponent
        numbers.p numbers.q then
      some
        { publicKey := ⟨numbers.modulus, numbers.exponent, publicValid⟩
          exponent := numbers.privateExponent
          p := numbers.p
          q := numbers.q
          isPrivatePart := privateValid }
    else
      none
  else
    none

def PrivateKey.decode (bytes : Bytes) : Except Fault PrivateKey :=
  match PrivateForm.decode? bytes with
  | none => .error .privateForm
  | some .moreFactors => .error .privateNumbers
  | some (.twoFactors numbers) =>
      match numbers.key? with
      | none => .error .privateNumbers
      | some key => .ok key

end KeyStore.Rsa
