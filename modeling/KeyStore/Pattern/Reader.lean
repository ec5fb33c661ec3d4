import KeyStore.Pattern.ClassReader
import KeyStore.Text.Numeral

/-!
# Reading of patterns

A pattern is read from its start to its end, with the open groups kept on a stack.
-/

namespace KeyStore.Pattern

/-- The branches of a group as far as they have been read. -/
structure Branches where
  /-- The branches before the last, the last of them first. -/
  finished : List Pattern
  parts : List Pattern

namespace Branches

def initial : Branches := ⟨[], []⟩

def push (branches : Branches) (part : Pattern) : Branches :=
  { branches with parts := part :: branches.parts }

def finish (branches : Branches) : Branches :=
  ⟨ofParts branches.parts.reverse :: branches.finished, []⟩

def pattern (branches : Branches) : Pattern :=
  ofBranches branches.finish.finished.reverse

/-- Repeats the last part. There has to be one, and a change of modes is none that can be
repeated. -/
def repeatLast? (branches : Branches) : Option Branches :=
  match branches.parts with
  | [] => none
  | .switch _ :: _ => none
  | part :: parts => some { branches with parts := .repeated part :: parts }

end Branches

structure OpenGroup where
  change : ModeChange
  /-- Whether the pattern around the group is verbose. -/
  isVerbose : Bool
  branches : Branches

structure Position where
  isVerbose : Bool
  branches : Branches
  groups : List OpenGroup
  names : List (List Char)

namespace Position

def initial : Position := ⟨false, .initial, [], []⟩

def push (position : Position) (part : Pattern) : Position :=
  { position with branches := position.branches.push part }

def change (position : Position) (change : ModeChange) : Position :=
  { position.push (.switch change) with
    isVerbose := change.isVerbose.getD position.isVerbose }

def enter (position : Position) (change : ModeChange) : Position :=
  { position with
    isVerbose := change.isVerbose.getD position.isVerbose
    branches := .initial
    groups := ⟨change, position.isVerbose, position.branches⟩ :: position.groups }

def leave? (position : Position) : Option Position :=
  match position.groups with
  | [] => none
  | inner :: outer =>
      let part := .group inner.change position.branches.pattern
      some { position with
        isVerbose := inner.isVerbose, branches := inner.branches.push part, groups := outer }

end Position

def isGroupName : List Char → Bool
  | [] => false
  | first :: rest =>
      (first = '_' || isLetter first) &&
        rest.all fun char => ['_', '.', '[', ']'].contains char || isAlphanumeric char

/-- Opens a group with a name, read from the name on. No other group has the name. -/
def enterNamed? (position : Position) (text : List Char) : Option (Position × List Char) :=
  let name := text.takeWhile (· ≠ '>')
  match text.dropWhile (· ≠ '>') with
  | [] => none
  | _ :: rest =>
      if isGroupName name ∧ name ∉ position.names then
        some ({ position.enter .identity with names := name :: position.names }, rest)
      else
        none

/-- Opens a group with modes, or changes those of the innermost group, read from the letters on. -/
def enterMode? (position : Position) (text : List Char) : Option (Position × List Char) := do
  let letters := text.takeWhile fun char => char ≠ ':' && char ≠ ')'
  let change ← ModeChange.ofLetters? letters
  match text.drop letters.length with
  | [] => none
  | ':' :: rest => return (position.enter change, rest)
  | _ :: rest => if letters = [] then none else return (position.change change, rest)

def enterGroup? (position : Position) (text : List Char) : Option (Position × List Char) :=
  match skipLayout position.isVerbose text with
  | '?' :: 'P' :: '<' :: name => enterNamed? position name
  | '?' :: '<' :: name => enterNamed? position name
  | '?' :: letters => enterMode? position letters
  | rest => some (position.enter .identity, rest)

def readSign? (isVerbose : Bool) (char : Char) (rest : List Char) : Option (Sign × List Char) :=
  if char = '\\' then readEscape? isVerbose rest
  else if char = '.' then some (.any, rest)
  else if char = '^' ∨ char = '$' then some (.edge, rest)
  else some (.literal (.plain char), rest)

/-- Reads one part of a pattern and moves behind it. A repetition by numbers needs a closing brace,
which no value of a field can hold, so an opening brace is malformed. -/
def step? (position : Position) (char : Char) (rest : List Char) :
    Option (Position × List Char) :=
  if char = '(' then
    enterGroup? position rest
  else if char = ')' then
    position.leave?.map fun position => (position, rest)
  else if char = '|' then
    some ({ position with branches := position.branches.finish }, rest)
  else if char = '?' ∨ char = '*' ∨ char = '+' then do
    let branches ← position.branches.repeatLast?
    return ({ position with branches }, if rest.head? = some '?' then rest.drop 1 else rest)
  else if char = '\x7b' then
    none
  else if char = '[' then do
    let (part, rest) ← readClass? position.isVerbose rest
    return (position.push part, rest)
  else do
    let (sign, rest) ← readSign? position.isVerbose char rest
    return (position.push (.single sign), rest)

/-- Reads a pattern from a position on. Each step takes at least one character, so the length of the
text is enough as a budget. -/
def readFrom? (budget : Nat) (position : Position) (text : List Char) : Option Pattern :=
  match skipLayout position.isVerbose text, budget with
  | [], _ => if position.groups.isEmpty then some position.branches.pattern else none
  | _, 0 => none
  | char :: rest, budget + 1 => do
      let (following, behind) ← step? position char rest
      readFrom? budget following behind

def parse? (text : List Char) : Option Pattern :=
  readFrom? text.length .initial text

end KeyStore.Pattern
