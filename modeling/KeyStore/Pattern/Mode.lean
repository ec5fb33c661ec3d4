/-!
# Modes of patterns

A pattern can change the way in which it is read by rows of letters: those before a minus sign set
something, and those behind it take it away.
-/

namespace KeyStore.Pattern

/-- What the characters of a pattern stand for. -/
structure Mode where
  foldsCase : Bool
  isUnicode : Bool
deriving DecidableEq, Repr

def Mode.initial : Mode := ⟨false, true⟩

/-- A change of modes. What it does not name stays as it is. -/
structure ModeChange where
  foldsCase : Option Bool
  isUnicode : Option Bool
  isVerbose : Option Bool
deriving DecidableEq, Repr

def ModeChange.identity : ModeChange := ⟨none, none, none⟩

def Mode.change (mode : Mode) (change : ModeChange) : Mode :=
  ⟨change.foldsCase.getD mode.foldsCase, change.isUnicode.getD mode.isUnicode⟩

/-- Whether a row of letters sets something or takes it away, if it names it at all. -/
def setting? (letters : List Char) (letter : Char) : Option Bool :=
  if letter ∈ letters.takeWhile (· ≠ '-') then some true
  else if letter ∈ letters then some false
  else none

/-- The letters that change modes; only three of them matter to what is well-formed. -/
def modeLetters : List Char := ['i', 'm', 's', 'U', 'u', 'R', 'x']

/-- The change that a row of letters writes. None of them stands twice, and behind a minus sign
there is a letter. -/
def ModeChange.ofLetters? (letters : List Char) : Option ModeChange :=
  if letters.Nodup ∧ letters.all (fun letter => letter = '-' || modeLetters.contains letter) ∧
      letters.getLast? ≠ some '-' then
    some ⟨setting? letters 'i', setting? letters 'u', setting? letters 'x'⟩
  else
    none

end KeyStore.Pattern
