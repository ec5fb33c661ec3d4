import KeyStore.Proofs.Rsa.Encoding
import KeyStore.Proofs.Rsa.Key
import Mathlib.Data.Set.List

/-!
# Declared private keys

What a byte string in the form of a private key declares: the numbers of a key, and the factors
beyond the second if it is a key with more than two. The numbers need not belong together. Reading
accepts exactly the forms of declarations, and makes a key of those alone that declare two factors
and whose numbers pass the checks.
-/

namespace KeyStore.Rsa

open Der

/-- A factor beyond the second with its exponent and its coefficient, as they are written. -/
structure FurtherFactor where
  factor : Nat
  exponent : Nat
  coefficient : Nat
deriving DecidableEq, Repr

namespace FurtherFactor

def form (further : FurtherFactor) : Element :=
  .ofParts sequenceTag
    ([further.factor, further.exponent, further.coefficient].map
      fun (number : Nat) => Element.ofInt number)

def listForm (list : List FurtherFactor) : Element :=
  .ofParts sequenceTag (list.map form)

theorem exists_form_of_isFactor {element : Element} (isFactor : isFactor element = true) :
    ∃ further : FurtherFactor, element = further.form := by
  rw [Rsa.isFactor] at isFactor
  split at isFactor
  · next factor exponent coefficient read =>
      obtain ⟨parts, split, numbers⟩ := Option.bind_eq_some_iff.mp read
      refine ⟨⟨factor, exponent, coefficient⟩, ?_⟩
      rw [(Element.parts?_eq_some_iff.mp split).1, Element.mapM_nat?_eq_some_iff.mp numbers]
      rfl
  · contradiction

theorem isFactor_form {further : FurtherFactor}
    (short : further.form.content.length < lengthLimit) : isFactor further.form = true := by
  have known : ∀ part ∈ [further.factor, further.exponent, further.coefficient].map
      (fun (number : Nat) => Element.ofInt number), IsKnownTag part.tag := by
    intro part member
    obtain ⟨number, _, rfl⟩ := List.mem_map.mp member
    exact Element.isKnownTag_ofInt number
  have parts := Element.parts?_ofParts known short
  have numbers := Element.mapM_nat?_eq_some_iff.mpr
    (rfl : [further.factor, further.exponent, further.coefficient].map
      (fun (number : Nat) => Element.ofInt number) = _)
  rw [isFactor, form, parts, Option.bind_some, numbers]

theorem exists_listForm_of_isFactorList {element : Element}
    (isList : isFactorList element = true) :
    ∃ list : List FurtherFactor, element = listForm list := by
  rw [isFactorList] at isList
  split at isList
  · next members split =>
      obtain ⟨rfl, _⟩ := Element.parts?_eq_some_iff.mp split
      have each : ∀ member ∈ members, member ∈ Set.range form := by
        intro member isMember
        obtain ⟨further, isForm⟩ :=
          exists_form_of_isFactor (List.all_eq_true.mp isList member isMember)
        exact ⟨further, isForm.symm⟩
      obtain ⟨list, rfl⟩ : members ∈ Set.range (List.map form) := by
        rw [Set.range_list_map]
        exact each
      exact ⟨list, rfl⟩
  · contradiction

theorem isFactorList_listForm {list : List FurtherFactor}
    (short : (listForm list).content.length < lengthLimit) :
    isFactorList (listForm list) = true := by
  have known : ∀ part ∈ list.map form, IsKnownTag part.tag := by
    intro part member
    obtain ⟨further, _, rfl⟩ := List.mem_map.mp member
    exact isKnownTag_sequenceTag
  have parts := Element.parts?_ofParts known short
  rw [isFactorList, listForm, parts]
  refine List.all_eq_true.mpr fun part member => ?_
  obtain ⟨further, _, rfl⟩ := List.mem_map.mp member
  exact isFactor_form ((Element.content_lt_ofParts sequenceTag member).trans short)

end FurtherFactor

/-- What the form of a private key declares. -/
inductive Declaration where
  | twoFactors (numbers : PrivateNumbers)
  | moreFactors (numbers : PrivateNumbers) (further : List FurtherFactor)

namespace Declaration

def numbers : Declaration → PrivateNumbers
  | .twoFactors numbers | .moreFactors numbers _ => numbers

def factors : Declaration → List Nat
  | .twoFactors numbers => [numbers.p, numbers.q]
  | .moreFactors numbers further => numbers.p :: numbers.q :: further.map FurtherFactor.factor

def form : Declaration → Element
  | .twoFactors numbers => numbers.sequence 0 []
  | .moreFactors numbers further => numbers.sequence 1 [FurtherFactor.listForm further]

def shape : Declaration → PrivateForm
  | .twoFactors numbers => .twoFactors numbers
  | .moreFactors _ _ => .moreFactors

/-- The key of a declaration. There is none with more than two factors. -/
def key? : Declaration → Option PrivateKey
  | .twoFactors numbers => numbers.key?
  | .moreFactors _ _ => none

/-- A declaration is flawed if it has more than two factors, if one of them is zero, one or even, or
if their product is not the modulus. -/
inductive IsFlawed : Declaration → Prop
  | moreFactors (numbers : PrivateNumbers) (further : List FurtherFactor) :
      IsFlawed (.moreFactors numbers further)
  | smallFactor {declaration : Declaration} {factor : Nat} (member : factor ∈ declaration.factors)
      (small : factor ≤ 1) : IsFlawed declaration
  | evenFactor {declaration : Declaration} {factor : Nat} (member : factor ∈ declaration.factors)
      (even : factor % 2 = 0) : IsFlawed declaration
  | otherProduct {declaration : Declaration}
      (different : declaration.factors.prod ≠ declaration.numbers.modulus) : IsFlawed declaration

end Declaration

/-- The well-formed byte strings are the forms of declarations that are short enough. -/
theorem PrivateForm.decode?_eq_some_iff {bytes : Bytes} {form : PrivateForm} :
    decode? bytes = some form ↔
      ∃ declaration : Declaration, bytes = declaration.form.encode ∧
        bytes.length < lengthLimit ∧ declaration.shape = form := by
  rw [decode?_eq_some_iff_sequence]
  constructor
  · rintro ⟨version, numbers, more, written, short, continues⟩
    cases continues with
    | nothing => exact ⟨.twoFactors numbers, written, short, rfl⟩
    | factorList isList =>
        obtain ⟨further, rfl⟩ := FurtherFactor.exists_listForm_of_isFactorList isList
        exact ⟨.moreFactors numbers further, written, short, rfl⟩
  · rintro ⟨declaration, rfl, short, rfl⟩
    cases declaration with
    | twoFactors numbers => exact ⟨0, numbers, [], rfl, short, .nothing⟩
    | moreFactors numbers further =>
        have part : (FurtherFactor.listForm further).content.length <
            (Declaration.moreFactors numbers further).form.content.length :=
          Element.content_lt_ofParts sequenceTag
            (List.mem_append_right _ (List.mem_singleton_self _))
        have listShort := (part.trans (Element.content_lt_encode _)).trans short
        exact ⟨1, numbers, [FurtherFactor.listForm further], rfl, short,
          .factorList (FurtherFactor.isFactorList_listForm listShort)⟩

/-- The form of a declaration is read as the key that it makes. If it makes none its numbers are at
fault, and if it is too long its form is. -/
theorem PrivateKey.decode_declaration (declaration : Declaration) :
    PrivateKey.decode declaration.form.encode =
      if declaration.form.encode.length < lengthLimit then
        match declaration.key? with
        | some key => .ok key
        | none => .error .privateNumbers
      else
        .error .privateForm := by
  by_cases short : declaration.form.encode.length < lengthLimit
  · have read : PrivateForm.decode? declaration.form.encode = some declaration.shape :=
      PrivateForm.decode?_eq_some_iff.mpr ⟨declaration, rfl, short, rfl⟩
    rw [if_pos short, decode, read]
    cases declaration with
    | twoFactors numbers =>
        cases found : numbers.key? with
        | none => simp only [Declaration.shape, Declaration.key?, found]
        | some key => simp only [Declaration.shape, Declaration.key?, found]
    | moreFactors numbers further => rfl
  · have unread : PrivateForm.decode? declaration.form.encode = none := by
      rw [Option.eq_none_iff_forall_ne_some]
      intro form read
      obtain ⟨_, _, fits, _⟩ := PrivateForm.decode?_eq_some_iff.mp read
      exact short fits
    rw [if_neg short, decode, unread]

/-- A private key is read from a declaration that makes it, and from nothing else. -/
theorem PrivateKey.exists_declaration_of_decode {bytes : Bytes} {key : PrivateKey}
    (read : PrivateKey.decode bytes = .ok key) :
    ∃ declaration : Declaration, bytes = declaration.form.encode ∧
      bytes.length < lengthLimit ∧ declaration.key? = some key := by
  cases found : PrivateForm.decode? bytes with
  | none =>
      rw [decode, found] at read
      contradiction
  | some form =>
      obtain ⟨declaration, rfl, short, _⟩ := PrivateForm.decode?_eq_some_iff.mp found
      rw [decode_declaration, if_pos short] at read
      split at read
      · next made =>
          obtain rfl := Except.ok.inj read
          exact ⟨declaration, rfl, short, made⟩
      · contradiction

namespace Declaration

/-- What a declaration that makes a key has in common with the key. -/
theorem eq_twoFactors_of_key? {declaration : Declaration} {key : PrivateKey}
    (made : declaration.key? = some key) :
    declaration = .twoFactors declaration.numbers ∧ declaration.factors = key.factors ∧
      declaration.numbers.modulus = key.publicKey.modulus := by
  cases declaration with
  | twoFactors numbers =>
      rw [key?] at made
      unfold PrivateNumbers.key? at made
      split at made
      · split at made
        · cases made
          exact ⟨rfl, rfl, rfl⟩
        · contradiction
      · contradiction
  | moreFactors numbers further => contradiction

theorem IsFlawed.key?_eq_none {declaration : Declaration} (flawed : declaration.IsFlawed) :
    declaration.key? = none := by
  rw [Option.eq_none_iff_forall_ne_some]
  intro key made
  obtain ⟨two, sameFactors, sameModulus⟩ := eq_twoFactors_of_key? made
  cases flawed with
  | moreFactors numbers further => contradiction
  | smallFactor member small =>
      rw [sameFactors] at member
      exact absurd (PrivateKey.one_lt_of_mem_factors member) (Nat.not_lt.mpr small)
  | evenFactor member even =>
      rw [sameFactors] at member
      have odd := PrivateKey.odd_of_mem_factors member
      omega
  | otherProduct different =>
      rw [sameFactors, sameModulus] at different
      exact different key.prod_factors

/-- A flawed declaration is refused for its numbers if it is well-formed, which takes a form that is
short enough. -/
theorem IsFlawed.decode_form {declaration : Declaration} (flawed : declaration.IsFlawed) :
    PrivateKey.decode declaration.form.encode =
      .error (if declaration.form.encode.length < lengthLimit then .privateNumbers
        else .privateForm) := by
  rw [PrivateKey.decode_declaration, flawed.key?_eq_none, apply_ite Except.error]

end Declaration

end KeyStore.Rsa
