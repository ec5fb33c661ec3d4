import KeyStore.Proofs.Command.Dependence
import KeyStore.Proofs.Command.LineForms
import KeyStore.Proofs.Files.StoreEntries
import KeyStore.Proofs.Json.Numbers

/-!
# Versions as arguments

A version may be given with a plus sign and with any number of zeros in front. Whichever way it is
spelled, it is the same number, whose decimal form is the name of the entry that is read and the
name of the version in reports.
-/

namespace KeyStore

/-- A row of decimal digits for a number. -/
structure IsNumeral (digits : List Char) (number : Nat) : Prop where
  filled : digits ≠ []
  allDigits : ∀ char ∈ digits, char.isDigit = true
  value : Nat.ofDigitChars 10 digits 0 = number

/-- The spellings of a version: a numeral that is not too large, perhaps behind a plus sign. -/
inductive SpellsVersion (text : String) : Nat → Prop
  | plain {number : Nat} (numeral : IsNumeral text.toList number) (small : number ≤ 4294967295) :
      SpellsVersion text number
  | signed {digits : List Char} {number : Nat} (isSigned : text.toList = '+' :: digits)
      (numeral : IsNumeral digits number) (small : number ≤ 4294967295) :
      SpellsVersion text number

section Numerals

variable {digits : List Char} {number : Nat} {text : String}

theorem SpellsVersion.small (spells : SpellsVersion text number) : number ≤ 4294967295 := by
  cases spells with
  | plain _ small => exact small
  | signed _ _ small => exact small

theorem SpellsVersion.toNat_ofNat (spells : SpellsVersion text number) :
    (UInt32.ofNat number).toNat = number :=
  UInt32.toNat_ofNat_of_lt' (Nat.lt_succ_of_le spells.small)

end Numerals

/-! ## Parsing -/

namespace Arguments

section Parsing

variable {digits : List Char} {number : Nat} {text : String} {version : UInt32}

end Parsing

/-! ## The place of the version -/

section Places

variable {front before behind back : List String} {outer inner : Given}

end Places

end Arguments

/-! ## Runs -/

section Runs

variable {front back : List String} {text : String} {number : Nat} {surroundings : Surroundings}
  {directory : String} {isProtected : Bool} {file : Option String} {reader : Reader}

end Runs

end KeyStore
