/-!
# Ranges of characters

A class of characters is given by the ascending list of the code points at which membership
changes: the first starts a range of members, the second is the first code point behind it, and so
on. A code point is a member when the boundaries up to it are odd in number.
-/

namespace KeyStore.CharRanges

def contains (boundaries : List Nat) (char : Char) : Bool :=
  (boundaries.takeWhile (· ≤ char.toNat)).length % 2 = 1

end KeyStore.CharRanges
