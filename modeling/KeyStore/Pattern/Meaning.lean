import KeyStore.Pattern.Reader

/-!
# Patterns that have a meaning

Patterns do without Unicode tables, so what would need one has no meaning: kinds of characters, both
cases of a letter at once, and the edges of words. Where bytes take the place of characters, only
ASCII has a meaning.
-/

namespace KeyStore.Pattern

def Sign.hasMeaning (mode : Mode) : Sign → Bool
  | .literal written =>
      if mode.isUnicode then !mode.foldsCase else !written.isByte || written.char.toNat < 0x80
  | .any => mode.isUnicode
  | .kind isNegated => !mode.isUnicode && !isNegated
  | .edge => true
  | .wordEdge => !mode.isUnicode

def Literal.isMember (mode : Mode) (literal : Literal) : Bool :=
  if mode.isUnicode then !mode.foldsCase else literal.char.toNat < 0x80

/-- Whether a class has a meaning in a mode if its set has one. The bytes that are not in a class go
beyond ASCII. -/
def Mode.admitsClass (mode : Mode) (isNegated : Bool) : Bool :=
  mode.isUnicode || !isNegated

namespace ClassSet

mutual

def hasMeaning (mode : Mode) : ClassSet → Bool
  | .empty => true
  | .literal written => written.isMember mode
  | .range low high => low.isMember mode && high.isMember mode
  | .named isNegated => if mode.isUnicode then !mode.foldsCase else !isNegated
  | .kind isNegated => !mode.isUnicode && !isNegated
  | .bracketed isNegated set => mode.admitsClass isNegated && set.hasMeaning mode
  | .union members => haveMeaning mode members
  | .operation left right => left.hasMeaning mode && right.hasMeaning mode

def haveMeaning (mode : Mode) : List ClassSet → Bool
  | [] => true
  | member :: members => member.hasMeaning mode && haveMeaning mode members

end

end ClassSet

mutual

/-- The mode behind a pattern that is read in a mode, if all of it has a meaning. -/
def modeBehind? : Pattern → Mode → Option Mode
  | .empty, mode => some mode
  | .switch change, mode => some (mode.change change)
  | .single sign, mode => if sign.hasMeaning mode then some mode else none
  | .oneOf isNegated set, mode =>
      if mode.admitsClass isNegated ∧ set.hasMeaning mode then some mode else none
  | .repeated inner, mode => inner.modeBehind? mode
  | .group change inner, mode => (inner.modeBehind? (mode.change change)).map fun _ => mode
  | .sequence parts, mode => modeBehindAll? parts mode
  | .choice branches, mode => modeBehindAll? branches mode

/-- The mode behind several patterns that are read one after the other, if all of them have a
meaning. -/
def modeBehindAll? : List Pattern → Mode → Option Mode
  | [], mode => some mode
  | part :: parts, mode => (part.modeBehind? mode).bind (modeBehindAll? parts)

end

def depthLimit : Nat := 250

def isWellFormed (text : List Char) : Bool :=
  match parse? text with
  | some pattern => pattern.depth ≤ depthLimit && (pattern.modeBehind? .initial).isSome
  | none => false

end KeyStore.Pattern
