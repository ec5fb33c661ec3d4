import KeyStore.Text.Blank

/-!
# Layout of patterns

In a verbose pattern blanks stand for nothing, and neither do comments, which go from a number sign
to the end of the line.
-/

namespace KeyStore.Pattern

/-- The text behind blanks and comments; `isComment` tells whether its start is in a comment. -/
def dropLayout : (isComment : Bool) → List Char → List Char
  | _, [] => []
  | true, char :: rest => dropLayout (char ≠ '\n') rest
  | false, char :: rest =>
      if isBlank char then dropLayout false rest
      else if char = '#' then dropLayout true rest
      else char :: rest

/-- The text from the next character on that stands for something. -/
def skipLayout (isVerbose : Bool) (text : List Char) : List Char :=
  if isVerbose then dropLayout false text else text

/-- The character that tells whether a minus sign before a text makes a range. This looks behind
blanks and behind one number sign, not behind a comment. -/
def characterAhead? (isVerbose : Bool) (text : List Char) : Option Char :=
  if isVerbose then
    let rest := trimStart text
    let rest := if rest.head? = some '#' then trimStart (rest.drop 1) else rest
    rest.head?.or text.head?
  else
    text.head?

end KeyStore.Pattern
