import KeyStore.Rsa.Encoding
import KeyStore.Proofs.Der.Primitive

/-!
# RSA keys in their only form

Numbers that make up a key are read back from the form of that key, and a key is read from nothing
else. The three numbers of a private key for the Chinese remainder theorem only have to be natural
numbers; all other integers in their place, and forms that are too long, are faults of form.
-/

namespace KeyStore.Rsa

open Der

theorem parts?_integers {numbers : List Int}
    (short : (Element.ofParts sequenceTag (numbers.map .ofInt)).encode.length < lengthLimit) :
    (Element.ofParts sequenceTag (numbers.map .ofInt)).parts? sequenceTag =
      some (numbers.map .ofInt) := by
  refine Element.parts?_ofParts (fun part member => ?_)
    ((Element.content_lt_encode _).trans short)
  obtain ⟨number, _, rfl⟩ := List.mem_map.mp member
  exact Element.isKnownTag_ofInt number

theorem publicForm_eq (modulus exponent : Int) :
    publicForm modulus exponent =
      .ofParts sequenceTag ([modulus, exponent].map Element.ofInt) :=
  rfl

/-- Two integers in the form of a public key are read exactly if they are natural numbers and the
form is short enough. -/
theorem PublicNumbers.decode?_publicForm (modulus exponent : Int) :
    PublicNumbers.decode? (publicForm modulus exponent).encode =
      if 0 ≤ modulus ∧ 0 ≤ exponent ∧
          (publicForm modulus exponent).encode.length < lengthLimit then
        some ⟨modulus.toNat, exponent.toNat⟩
      else
        none := by
  have known : IsKnownTag (publicForm modulus exponent).tag := isKnownTag_sequenceTag
  have read := decodeOnly?_encode known
  have natural := Element.mapM_nat?_ofInt [modulus, exponent]
  rw [PublicNumbers.decode?, read, publicForm_eq]
  by_cases short :
      (Element.ofParts sequenceTag ([modulus, exponent].map .ofInt)).encode.length < lengthLimit
  · have parts := parts?_integers short
    by_cases nonnegative : 0 ≤ modulus ∧ 0 ≤ exponent
    · have all : ∀ number ∈ [modulus, exponent], 0 ≤ number := by
        simpa using nonnegative
      rw [if_pos all] at natural
      rw [if_pos short, if_pos ⟨nonnegative.1, nonnegative.2, short⟩]
      simp only [bind, Option.bind, parts, natural]
      rfl
    · have notAll : ¬∀ number ∈ [modulus, exponent], 0 ≤ number := by
        simpa using nonnegative
      rw [if_neg notAll] at natural
      rw [if_pos short, if_neg fun fits => nonnegative ⟨fits.1, fits.2.1⟩]
      simp only [bind, Option.bind, parts, natural]
  · rw [if_neg short, if_neg fun fits => short fits.2.2]
    rfl

/-- Two numbers are read from their only form. -/
theorem PublicNumbers.decode?_eq_some_iff
    {bytes : Bytes} {numbers : PublicNumbers} :
    decode? bytes = some numbers ↔
      bytes = (publicForm numbers.modulus numbers.exponent).encode ∧
        bytes.length < lengthLimit := by
  constructor
  · intro read
    rw [decode?] at read
    cases found : decodeOnly? bytes with
    | none =>
        simp [found] at read
    | some element =>
        obtain ⟨isForm, _, short⟩ := decodeOnly?_eq_some_iff.mp found
        cases split : element.parts? sequenceTag with
        | none =>
            simp [found, split] at read
        | some parts =>
            obtain ⟨form, _⟩ := Element.parts?_eq_some_iff.mp split
            cases natural : parts.mapM Element.nat? with
            | none =>
                simp [found, split, natural] at read
            | some row =>
                have written := Element.mapM_nat?_eq_some_iff.mp natural
                simp only [found, split, natural, bind, Option.bind] at read
                split at read
                · next modulus exponent _ =>
                    obtain rfl := Option.some.inj read
                    refine ⟨?_, short⟩
                    rw [isForm, form, written]
                    rfl
                · contradiction
  · rintro ⟨rfl, short⟩
    rw [decode?_publicForm,
      if_pos ⟨Int.natCast_nonneg _, Int.natCast_nonneg _, short⟩]
    rfl

/-- Integers are those of a public key: they pass the check of a key, and the modulus is not too
long. -/
def ArePublicNumbers (modulus exponent : Int) (key : PublicKey) : Prop :=
  modulus = key.modulus ∧ exponent = key.exponent ∧ key.size ≤ maxSize

theorem PublicNumbers.key?_eq_some_iff {numbers : PublicNumbers} {key : PublicKey} :
    numbers.key? = some key ↔
      numbers = ⟨key.modulus, key.exponent⟩ ∧ key.size ≤ maxSize := by
  obtain ⟨modulus, exponent⟩ := numbers
  obtain ⟨keyModulus, keyExponent, valid⟩ := key
  unfold PublicNumbers.key?
  constructor
  · intro found
    split at found
    · split at found
      · next size =>
          cases found
          exact ⟨rfl, size⟩
      · contradiction
    · contradiction
  · rintro ⟨same, size⟩
    cases same
    exact (dif_pos valid).trans (if_pos size)

/-- A public key is read from the form of its two numbers and from nothing else. -/
theorem PublicKey.decode_eq_ok_iff
    {bytes : Bytes} {key : PublicKey} :
    PublicKey.decode bytes = .ok key ↔
      bytes = (publicForm key.modulus key.exponent).encode ∧
        bytes.length < lengthLimit ∧ key.size ≤ maxSize := by
  rw [decode]
  constructor
  · intro read
    split at read
    · contradiction
    · next numbers numbersRead =>
        obtain ⟨form, short⟩ := PublicNumbers.decode?_eq_some_iff.mp numbersRead
        split at read
        · contradiction
        · next found keyFound =>
            obtain rfl := Except.ok.inj read
            obtain ⟨rfl, size⟩ := PublicNumbers.key?_eq_some_iff.mp keyFound
            exact ⟨form, short, size⟩
  · rintro ⟨form, short, size⟩
    have numbersRead : PublicNumbers.decode? bytes = some ⟨key.modulus, key.exponent⟩ :=
      PublicNumbers.decode?_eq_some_iff.mpr ⟨form, short⟩
    have found : PublicNumbers.key? ⟨key.modulus, key.exponent⟩ = some key :=
      PublicNumbers.key?_eq_some_iff.mpr ⟨rfl, size⟩
    simp only [numbersRead, found]

theorem PublicKey.decode_publicForm {modulus exponent : Int} {key : PublicKey}
    (numbers : ArePublicNumbers modulus exponent key)
    (short : (publicForm modulus exponent).encode.length < lengthLimit) :
    PublicKey.decode (publicForm modulus exponent).encode = .ok key := by
  obtain ⟨rfl, rfl, size⟩ := numbers
  have read := PublicNumbers.decode?_publicForm key.modulus key.exponent
  rw [if_pos ⟨Int.natCast_nonneg _, Int.natCast_nonneg _, short⟩] at read
  have found : PublicNumbers.key? ⟨key.modulus, key.exponent⟩ = some key :=
    PublicNumbers.key?_eq_some_iff.mpr ⟨rfl, size⟩
  simp only [PublicKey.decode, read, Int.toNat_natCast, found]

theorem PublicKey.decode_publicForm_of_large
    {key : PublicKey} (large : maxSize < key.size)
    (short : (publicForm key.modulus key.exponent).encode.length < lengthLimit) :
    PublicKey.decode (publicForm key.modulus key.exponent).encode = .error .publicNumbers := by
  have read : PublicNumbers.decode? (publicForm key.modulus key.exponent).encode =
      some ⟨key.modulus, key.exponent⟩ :=
    PublicNumbers.decode?_eq_some_iff.mpr ⟨rfl, short⟩
  have noKey : PublicNumbers.key? ⟨key.modulus, key.exponent⟩ = none := by
    rw [PublicNumbers.key?, dif_pos key.isPublicPair]
    exact if_neg (Nat.not_le.mpr large)
  simp only [PublicKey.decode, read, noKey]

theorem PublicKey.exists_decode_publicForm_error {modulus exponent : Int}
    (notNumbers : ∀ key, ¬ArePublicNumbers modulus exponent key) :
    ∃ fault, PublicKey.decode (publicForm modulus exponent).encode = .error fault := by
  have read := PublicNumbers.decode?_publicForm modulus exponent
  by_cases fits : 0 ≤ modulus ∧ 0 ≤ exponent ∧
      (publicForm modulus exponent).encode.length < lengthLimit
  · rw [if_pos fits] at read
    have noKey : PublicNumbers.key? ⟨modulus.toNat, exponent.toNat⟩ = none := by
      rw [Option.eq_none_iff_forall_ne_some]
      intro key found
      obtain ⟨same, size⟩ := PublicNumbers.key?_eq_some_iff.mp found
      obtain ⟨sameModulus, sameExponent⟩ := PublicNumbers.mk.inj same
      refine notNumbers key ⟨?_, ?_, size⟩
      · rw [← sameModulus, Int.toNat_of_nonneg fits.1]
      · rw [← sameExponent, Int.toNat_of_nonneg fits.2.1]
    refine ⟨.publicNumbers, ?_⟩
    simp only [PublicKey.decode, read, noKey]
  · rw [if_neg fits] at read
    refine ⟨.publicForm, ?_⟩
    simp only [PublicKey.decode, read]

/-! ## Private keys -/

def PrivateKey.integers (key : PrivateKey) (x y z : Int) : List Int :=
  [key.publicKey.modulus, key.publicKey.exponent, key.exponent, key.p, key.q, x, y, z]

theorem PrivateKey.form_eq (key : PrivateKey) (x y z : Int) :
    key.form x y z = .ofParts sequenceTag ((0 :: key.integers x y z).map Element.ofInt) :=
  rfl

theorem PrivateKey.nonnegative_integers (key : PrivateKey) {x y z : Int} :
    (∀ number ∈ key.integers x y z, 0 ≤ number) ↔ 0 ≤ x ∧ 0 ≤ y ∧ 0 ≤ z := by
  simp [integers]

theorem PrivateNumbers.ofElements?_integers (key : PrivateKey) (x y z : Int) :
    PrivateNumbers.ofElements? ((key.integers x y z).map Element.ofInt) =
      if 0 ≤ x ∧ 0 ≤ y ∧ 0 ≤ z then
        some ⟨key.publicKey.modulus, key.publicKey.exponent, key.exponent, key.p, key.q, x.toNat,
          y.toNat, z.toNat⟩
      else
        none := by
  have natural := Element.mapM_nat?_ofInt (key.integers x y z)
  by_cases nonnegative : 0 ≤ x ∧ 0 ≤ y ∧ 0 ≤ z
  · rw [if_pos (key.nonnegative_integers.mpr nonnegative)] at natural
    rw [if_pos nonnegative, ofElements?, natural]
    rfl
  · rw [if_neg fun all => nonnegative (key.nonnegative_integers.mp all)] at natural
    rw [if_neg nonnegative, ofElements?, natural]
    rfl

theorem PrivateForm.decode?_form (key : PrivateKey) (x y z : Int) :
    PrivateForm.decode? (key.form x y z).encode =
      if 0 ≤ x ∧ 0 ≤ y ∧ 0 ≤ z ∧ (key.form x y z).encode.length < lengthLimit then
        some (.twoFactors ⟨key.publicKey.modulus, key.publicKey.exponent, key.exponent, key.p,
          key.q, x.toNat, y.toNat, z.toNat⟩)
      else
        none := by
  have known : IsKnownTag (key.form x y z).tag := isKnownTag_sequenceTag
  have read := decodeOnly?_encode known
  have version : (Element.ofInt 0).nat? = some 0 := Element.nat?_ofInt 0
  have numbers := PrivateNumbers.ofElements?_integers key x y z
  rw [PrivateForm.decode?, read]
  by_cases short : (key.form x y z).encode.length < lengthLimit
  · have parts : (key.form x y z).parts? sequenceTag =
        some (.ofInt 0 :: (key.integers x y z).map Element.ofInt) := by
      rw [PrivateKey.form_eq] at short ⊢
      exact parts?_integers short
    have eight : ((Element.ofInt 0 :: (key.integers x y z).map Element.ofInt).drop 1).take 8 =
        (key.integers x y z).map Element.ofInt :=
      rfl
    rw [if_pos short]
    simp only [bind, Option.bind, parts, eight, numbers, List.head?_cons, version]
    by_cases nonnegative : 0 ≤ x ∧ 0 ≤ y ∧ 0 ≤ z
    · rw [if_pos nonnegative,
        if_pos ⟨nonnegative.1, nonnegative.2.1, nonnegative.2.2, short⟩]
      rfl
    · rw [if_neg nonnegative, if_neg fun fits => nonnegative ⟨fits.1, fits.2.1, fits.2.2.1⟩]
  · rw [if_neg short, if_neg fun fits => short fits.2.2.2]
    rfl

/-- The form of a private key is read as that key, whatever natural numbers stand in place of those
for the Chinese remainder theorem, and is refused otherwise. -/
theorem PrivateKey.decode_form (key : PrivateKey) (x y z : Int) :
    PrivateKey.decode (key.form x y z).encode =
      if 0 ≤ x ∧ 0 ≤ y ∧ 0 ≤ z ∧ (key.form x y z).encode.length < lengthLimit then
        .ok key
      else
        .error .privateForm := by
  rw [PrivateKey.decode, PrivateForm.decode?_form]
  by_cases fits : 0 ≤ x ∧ 0 ≤ y ∧ 0 ≤ z ∧ (key.form x y z).encode.length < lengthLimit
  · have found : PrivateNumbers.key? ⟨key.publicKey.modulus, key.publicKey.exponent, key.exponent,
        key.p, key.q, x.toNat, y.toNat, z.toNat⟩ = some key := by
      simp only [PrivateNumbers.key?, dif_pos key.publicKey.isPublicPair,
        dif_pos key.isPrivatePart]
    rw [if_pos fits, if_pos fits]
    simp only [found]
  · rw [if_neg fits, if_neg fits]

/-- The numbers of an encoded private key in their order, behind the version. -/
def PrivateNumbers.row (numbers : PrivateNumbers) : List Nat :=
  [numbers.modulus, numbers.exponent, numbers.privateExponent, numbers.p, numbers.q,
    numbers.exponentP, numbers.exponentQ, numbers.coefficient]

theorem PrivateNumbers.eq_of_ofElements?
    {elements : List Element} {numbers : PrivateNumbers}
    (read : ofElements? elements = some numbers) :
    elements = numbers.row.map fun (number : Nat) => Element.ofInt number := by
  rw [ofElements?] at read
  cases natural : elements.mapM Element.nat? with
  | none =>
      simp [natural] at read
  | some row =>
      have written := Element.mapM_nat?_eq_some_iff.mp natural
      simp only [natural, bind, Option.bind] at read
      split at read
      · obtain rfl := Option.some.inj read
        exact written
      · contradiction

theorem PrivateNumbers.ofElements?_row (numbers : PrivateNumbers) :
    ofElements? (numbers.row.map fun (number : Nat) => Element.ofInt number) = some numbers := by
  have read := Element.mapM_nat?_eq_some_iff.mpr
    (rfl : numbers.row.map (fun (number : Nat) => Element.ofInt number) = _)
  rw [ofElements?, read]
  rfl

namespace PrivateNumbers

variable (numbers : PrivateNumbers)

/-- A version, the numbers of a private key, and further elements in a row. -/
def elements (version : Nat) (more : List Element) : List Element :=
  ((version :: numbers.row).map fun (number : Nat) => Element.ofInt number) ++ more

def sequence (version : Nat) (more : List Element) : Element :=
  .ofParts sequenceTag (numbers.elements version more)

/-- What belongs behind the numbers: nothing in version zero, and in version one a list of further
factors. -/
inductive Continues : Nat → List Element → PrivateForm → Prop
  | nothing : Continues 0 [] (.twoFactors numbers)
  | factorList {list : Element} (isList : isFactorList list = true) :
      Continues 1 [list] .moreFactors

variable {numbers} {version : Nat} {more : List Element} {form : PrivateForm}

theorem Continues.isKnownTag (continues : numbers.Continues version more form) :
    ∀ part ∈ more, IsKnownTag part.tag := by
  intro part member
  cases continues with
  | nothing => exact absurd member List.not_mem_nil
  | factorList isList =>
      rw [List.mem_singleton.mp member]
      rw [isFactorList] at isList
      split at isList
      · next split => exact Element.isKnownTag_of_parts split
      · contradiction

/-- A sequence that is short enough is split into its parts if their tags are known. -/
theorem parts?_sequence (known : ∀ part ∈ more, IsKnownTag part.tag)
    (short : (numbers.sequence version more).encode.length < lengthLimit) :
    (numbers.sequence version more).parts? sequenceTag = some (numbers.elements version more) := by
  refine Element.parts?_ofParts (fun part member => ?_) ((Element.content_lt_encode _).trans short)
  rcases List.mem_append.mp member with isNumber | isMore
  · obtain ⟨number, _, rfl⟩ := List.mem_map.mp isNumber
    exact Element.isKnownTag_ofInt number
  · exact known part isMore

end PrivateNumbers

/-- The form of a private key is a sequence of a version, the numbers, and what belongs behind
them. -/
theorem PrivateForm.decode?_eq_some_iff_sequence {bytes : Bytes} {form : PrivateForm} :
    decode? bytes = some form ↔
      ∃ version numbers more, bytes = (PrivateNumbers.sequence numbers version more).encode ∧
        bytes.length < lengthLimit ∧ numbers.Continues version more form := by
  constructor
  · intro read
    simp only [decode?, Option.bind_eq_bind, Option.bind_eq_some_iff] at read
    obtain ⟨element, found, parts, split, head, isHead, version, versionRead, numbers, rowRead,
      shape⟩ := read
    obtain ⟨rfl, -, short⟩ := decodeOnly?_eq_some_iff.mp found
    obtain ⟨rfl, -⟩ := Element.parts?_eq_some_iff.mp split
    obtain ⟨rest, rfl⟩ := List.head?_eq_some_iff.mp isHead
    obtain rfl := Element.nat?_eq_some_iff.mp versionRead
    have eight := PrivateNumbers.eq_of_ofElements? rowRead
    have all : Element.ofInt version :: rest = numbers.elements version (rest.drop 8) := by
      rw [PrivateNumbers.elements, List.map_cons, ← eight, List.drop_one, List.tail_cons,
        List.cons_append, List.take_append_drop]
    refine ⟨version, numbers, rest.drop 8, ?_, short, ?_⟩
    · rw [PrivateNumbers.sequence, ← all]
    · rw [List.drop_succ_cons] at shape
      split at shape
      · next noMore =>
          rw [noMore, ← Option.some.inj shape]
          exact .nothing
      · next list isMore =>
          split at shape
          · next isList =>
              rw [isMore, ← Option.some.inj shape]
              exact .factorList isList
          · contradiction
      · contradiction
  · rintro ⟨version, numbers, more, rfl, short, continues⟩
    have read : decodeOnly? (numbers.sequence version more).encode =
        some (numbers.sequence version more) :=
      decodeOnly?_eq_some_iff.mpr ⟨rfl, isKnownTag_sequenceTag, short⟩
    have parts := PrivateNumbers.parts?_sequence continues.isKnownTag short
    have versionRead := Element.nat?_eq_some_iff.mpr (rfl : Element.ofInt version = _)
    have head : (numbers.elements version more).head? = some (.ofInt version) := rfl
    have eight : ((numbers.elements version more).drop 1).take 8 =
        numbers.row.map fun (number : Nat) => Element.ofInt number :=
      rfl
    have rest : (numbers.elements version more).drop 9 = more := rfl
    simp only [decode?, read, parts, head, versionRead, eight, rest, numbers.ofElements?_row,
      Option.bind_eq_bind, Option.bind_some]
    cases continues with
    | nothing => rfl
    | factorList isList => exact if_pos isList

/-- Numbers of a private key with two factors are read from nothing but their form. -/
theorem PrivateForm.eq_of_decode?
    {bytes : Bytes} {numbers : PrivateNumbers}
    (read : decode? bytes = some (.twoFactors numbers)) :
    bytes = (numbers.sequence 0 []).encode ∧ bytes.length < lengthLimit := by
  obtain ⟨version, row, more, form, short, continues⟩ := decode?_eq_some_iff_sequence.mp read
  cases continues with
  | nothing => exact ⟨form, short⟩

theorem PrivateKey.decode_eq_ok_iff
    {bytes : Bytes} {key : PrivateKey} :
    PrivateKey.decode bytes = .ok key ↔
      ∃ x y z : Nat, bytes = (key.form x y z).encode ∧ bytes.length < lengthLimit := by
  constructor
  · intro read
    rw [decode] at read
    split at read
    · contradiction
    · contradiction
    · next numbers numbersRead =>
        obtain ⟨form, short⟩ := PrivateForm.eq_of_decode? numbersRead
        split at read
        · contradiction
        · next found keyFound =>
            obtain rfl := Except.ok.inj read
            unfold PrivateNumbers.key? at keyFound
            split at keyFound
            · split at keyFound
              · cases keyFound
                exact ⟨numbers.exponentP, numbers.exponentQ, numbers.coefficient, form, short⟩
              · contradiction
            · contradiction
  · rintro ⟨x, y, z, rfl, short⟩
    have natural (number : Nat) : (0 : Int) ≤ number := Int.natCast_nonneg number
    rw [decode_form, if_pos ⟨natural x, natural y, natural z, short⟩]

/-- The modulus of a key whose form is short enough is counted in 64 bits. -/
theorem PrivateKey.size_lt_of_short {key : PrivateKey} {x y z : Int}
    (short : (key.form x y z).encode.length < lengthLimit) :
    key.publicKey.size < UInt64.size := by
  have part : (Element.ofInt key.publicKey.modulus).content.length <
      (key.form x y z).content.length :=
    Element.content_lt_ofParts sequenceTag (by simp)
  have below := (key.form x y z).content_lt_encode
  have bits : key.publicKey.size ≤ 8 * (Element.ofInt key.publicKey.modulus).content.length :=
    Element.bitLength_le_ofInt key.publicKey.modulus
  have room : 8 * lengthLimit < UInt64.size := by decide
  omega

theorem PublicKey.size_lt_of_le {key : PublicKey} (size : key.size ≤ maxSize) :
    key.size < UInt64.size :=
  size.trans_lt (by decide)

end KeyStore.Rsa
