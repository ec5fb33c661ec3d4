import KeyStore.Der.ObjectId
import KeyStore.Der.Primitive

/-!
# Public key information

The PKIX form of a public key: the algorithm that the key belongs to, and the key itself as a bit
string that only the algorithm can interpret.
-/

namespace KeyStore.Der

/-- An algorithm with its parameters, which may be one element of any kind. -/
structure AlgorithmId where
  algorithm : ObjectId
  parameters : Option Element

def AlgorithmId.ofElement? (element : Element) : Option AlgorithmId :=
  match element.parts? sequenceTag with
  | some (algorithm :: parameters) =>
      match algorithm.objectId?, parameters with
      | some algorithm, [] => some ⟨algorithm, none⟩
      | some algorithm, [only] => some ⟨algorithm, some only⟩
      | _, _ => none
  | _ => none

def AlgorithmId.element (algorithm : AlgorithmId) : Element :=
  .ofParts sequenceTag (algorithm.algorithm.element :: algorithm.parameters.toList)

/-- A public key that is not interpreted. -/
structure PublicKeyInfo where
  algorithm : AlgorithmId
  key : Bytes

/-- The public key of an element. The unused bits of its bit string do not count. -/
def PublicKeyInfo.ofElement? (element : Element) : Option PublicKeyInfo :=
  match element.parts? sequenceTag with
  | some [algorithm, key] =>
      match AlgorithmId.ofElement? algorithm, key.bits? with
      | some algorithm, some key => some ⟨algorithm, key⟩
      | _, _ => none
  | _ => none

def PublicKeyInfo.decode? (bytes : Bytes) : Option PublicKeyInfo :=
  match decodeOnly? bytes with
  | some element => PublicKeyInfo.ofElement? element
  | none => none

end KeyStore.Der
