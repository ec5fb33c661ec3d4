import KeyStore.Pattern.Escape

/-!
# Reading of classes

A class is a set of characters in brackets. It has characters, ranges, named classes and other
classes as members, and doubled signs between them are operations on sets.
-/

namespace KeyStore.Pattern

def classNames : List String :=
  ["alnum", "alpha", "ascii", "blank", "cntrl", "digit", "graph", "lower", "print", "punct",
    "space", "upper", "word", "xdigit"]

def readNamedClass? : List Char → Option (ClassSet × List Char)
  | ':' :: text =>
      let isNegated := text.head? = some '^'
      let named := if isNegated then text.drop 1 else text
      match named.dropWhile (· ≠ ':') with
      | ':' :: ']' :: rest =>
          if classNames.contains (String.ofList (named.takeWhile (· ≠ ':'))) then
            some (.named isNegated, rest)
          else
            none
      | _ => none
  | _ => none

def readItem? (isVerbose : Bool) : List Char → Option (Sign × List Char)
  | [] => none
  | char :: rest =>
      if char = '\\' then readEscape? isVerbose rest
      else some (.literal (.plain char), rest)

/-- The set that a sign stands for. A place is no character. -/
def ClassSet.ofSign? : Sign → Option ClassSet
  | .literal char => some (.literal char)
  | .kind isNegated => some (.kind isNegated)
  | .any | .edge | .wordEdge => none

/-- The range between two signs. Only characters have an order. -/
def ClassSet.rangeOf? : Sign → Sign → Option ClassSet
  | .literal low, .literal high => if low.char ≤ high.char then some (.range low high) else none
  | _, _ => none

/-- Reads a character, an escape or a range. A minus sign makes no range before a closing bracket or
another minus sign. -/
def readMember? (isVerbose : Bool) (text : List Char) : Option (ClassSet × List Char) := do
  let (first, rest) ← readItem? isVerbose text
  let rest := skipLayout isVerbose rest
  let ahead := characterAhead? isVerbose (rest.drop 1)
  if rest.head? = some '-' ∧ ahead ≠ some ']' ∧ ahead ≠ some '-' then
    let (last, rest) ← readItem? isVerbose (skipLayout isVerbose (rest.drop 1))
    return (← ClassSet.rangeOf? first last, rest)
  else
    return (← ClassSet.ofSign? first, rest)

structure OpenClass where
  isNegated : Bool
  /-- Whether nothing but minus signs has been read. -/
  isAtStart : Bool
  left : Option ClassSet
  /-- The members behind it, the last one first. -/
  members : List ClassSet

namespace OpenClass

def read (isVerbose : Bool) (text : List Char) : OpenClass × List Char :=
  match skipLayout isVerbose text with
  | '^' :: rest => (⟨true, true, none, []⟩, rest)
  | rest => (⟨false, true, none, []⟩, rest)

def set (opened : OpenClass) : ClassSet :=
  let right := ClassSet.ofMembers opened.members.reverse
  match opened.left with
  | some left => .operation left right
  | none => right

def push (opened : OpenClass) (member : ClassSet) : OpenClass :=
  { opened with isAtStart := false, members := member :: opened.members }

def operate (opened : OpenClass) : OpenClass :=
  { opened with isAtStart := false, left := some opened.set, members := [] }

/-- Takes up a sign at the start, where minus signs stand for themselves, and a closing bracket does
so as the very first. -/
def pushFirst? (opened : OpenClass) (char : Char) : Option OpenClass :=
  let pushed := opened.push (.literal (.plain char))
  if opened.isAtStart ∧ char = '-' then some { pushed with isAtStart := true }
  else if opened.isAtStart ∧ opened.members.isEmpty ∧ char = ']' then some pushed
  else none

end OpenClass

def operationSigns : List Char := ['&', '-', '~']

/-- Reads to the end of a class; `outer` are the classes around it, the innermost first. Each step
takes at least one character, so the length of the text is enough as a budget. -/
def readClassFrom? (isVerbose : Bool) :
    (budget : Nat) → OpenClass → (outer : List OpenClass) → List Char →
      Option (OpenClass × List Char)
  | 0, _, _, _ => none
  | budget + 1, inner, outer, text =>
      match skipLayout isVerbose text with
      | [] => none
      | char :: rest =>
          match inner.pushFirst? char with
          | some pushed => readClassFrom? isVerbose budget pushed outer rest
          | none =>
              if char = '[' then
                match readNamedClass? rest with
                | some (named, rest) =>
                    readClassFrom? isVerbose budget (inner.push named) outer rest
                | none =>
                    let (opened, rest) := OpenClass.read isVerbose rest
                    readClassFrom? isVerbose budget opened (inner :: outer) rest
              else if char = ']' then
                match outer with
                | [] => some (inner, rest)
                | around :: outer =>
                    let member := .bracketed inner.isNegated inner.set
                    readClassFrom? isVerbose budget (around.push member) outer rest
              else if operationSigns.contains char ∧ rest.head? = some char then
                readClassFrom? isVerbose budget inner.operate outer (rest.drop 1)
              else do
                let (member, rest) ← readMember? isVerbose (char :: rest)
                readClassFrom? isVerbose budget (inner.push member) outer rest

def readClass? (isVerbose : Bool) (text : List Char) : Option (Pattern × List Char) := do
  let (opened, rest) := OpenClass.read isVerbose text
  let (closed, rest) ← readClassFrom? isVerbose rest.length opened [] rest
  return (.oneOf closed.isNegated closed.set, rest)

end KeyStore.Pattern
