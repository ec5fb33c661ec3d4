import KeyStore.Der.Element

/-!
# Object identifiers

A path of numbers that names an algorithm or a kind of attribute. The first byte holds the first two
numbers; each further number takes a row of bytes with seven bits each, of which all but the last
have the high bit set.
-/

namespace KeyStore.Der

def objectIdTag : UInt8 := 0x06

/-- Splits off the bytes of one number, of which `taken` have been seen. From the fifth byte on the
high four bits must be zero. -/
def takeArc : (taken : Nat) → Bytes → Option (Bytes × Bytes)
  | _, [] => none
  | taken, byte :: rest =>
      if 4 ≤ taken ∧ 0x10 ≤ byte then
        none
      else if byte < 0x80 then
        some ([byte], rest)
      else
        match takeArc (taken + 1) rest with
        | some (arc, behind) => some (byte :: arc, behind)
        | none => none

theorem takeArc_length {taken : Nat} {bytes arc rest : Bytes}
    (found : takeArc taken bytes = some (arc, rest)) :
    rest.length < bytes.length := by
  induction bytes generalizing taken arc with
  | nil => contradiction
  | cons byte tail inductionHypothesis =>
      simp only [takeArc] at found
      split at found
      · contradiction
      · split at found
        · simp only [Option.some.injEq, Prod.mk.injEq] at found
          simp [← found.2]
        · split at found
          · next inner behind innerFound =>
              simp only [Option.some.injEq, Prod.mk.injEq] at found
              obtain ⟨_, rfl⟩ := found
              have shorter := inductionHypothesis innerFound
              simp only [List.length_cons]
              omega
          · contradiction

/-- The number of a row of bytes with seven bits each, modulo `2 ^ 32`. -/
def arcNumber (arc : Bytes) : Nat :=
  arc.foldl (fun number byte => number * 128 + byte.toNat % 128) 0 % Nat.pow 2 32

def arcs? (bytes : Bytes) : Option (List Nat) :=
  if bytes = [] then
    some []
  else
    match found : takeArc 0 bytes with
    | none => none
    | some (arc, rest) =>
        have := takeArc_length found
        match arcs? rest with
        | none => none
        | some arcs => some (arcNumber arc :: arcs)
termination_by bytes.length

def objectIdArcs? : Bytes → Option (List Nat)
  | [] => none
  | first :: rest =>
      if 3 ≤ rest.length + 1 ∧ rest.length + 1 ≤ 39 ∧ first < 120 then
        match arcs? rest with
        | some arcs => some (first.toNat / 40 :: first.toNat % 40 :: arcs)
        | none => none
      else
        none

/-- An object identifier: its bytes, and the numbers that they write. -/
structure ObjectId where
  content : Bytes
  arcs : List Nat
  arcs_eq : objectIdArcs? content = some arcs

namespace ObjectId

def ofContent? (content : Bytes) : Option ObjectId :=
  match found : objectIdArcs? content with
  | some arcs => some ⟨content, arcs, found⟩
  | none => none

def text (identifier : ObjectId) : String :=
  ".".intercalate (identifier.arcs.map toString)

def element (identifier : ObjectId) : Element :=
  ⟨objectIdTag, identifier.content⟩

instance : DecidableEq ObjectId := fun left right =>
  if same : left.content = right.content then
    isTrue <| by
      obtain ⟨content, arcs, arcsEq⟩ := left
      obtain ⟨_, otherArcs, otherEq⟩ := right
      subst same
      rw [arcsEq] at otherEq
      cases otherEq
      rfl
  else
    isFalse fun equality => same (congrArg content equality)

def rsaEncryption : ObjectId where
  content := [0x2a, 0x86, 0x48, 0x86, 0xf7, 0x0d, 0x01, 0x01, 0x01]
  arcs := [1, 2, 840, 113549, 1, 1, 1]
  arcs_eq := by decide +kernel

end ObjectId

def Element.objectId? (element : Element) : Option ObjectId :=
  if element.tag = objectIdTag then ObjectId.ofContent? element.content else none

end KeyStore.Der
