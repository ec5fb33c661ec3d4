import KeyStore.Pattern.Mode

/-!
# Patterns

Regular expressions as far as it matters to whether they are well-formed: how often something is
repeated, the name of a group and the members that a named class has do not.
-/

namespace KeyStore

/-- A character that stands for itself. -/
structure Pattern.Literal where
  char : Char
  /-- Whether it is written by a number that fits into a byte. -/
  isByte : Bool
deriving DecidableEq, Repr

def Pattern.Literal.plain (char : Char) : Literal := ⟨char, false⟩

inductive Pattern.Sign where
  | literal (literal : Literal)
  | any
  /-- A digit, a blank or a part of a word, or, negated, anything else. -/
  | kind (isNegated : Bool)
  | edge
  | wordEdge
deriving DecidableEq, Repr

inductive Pattern.ClassSet where
  | empty
  | literal (literal : Literal)
  | range (low high : Literal)
  | named (isNegated : Bool)
  | kind (isNegated : Bool)
  | bracketed (isNegated : Bool) (set : ClassSet)
  | union (members : List ClassSet)
  /-- The characters that two sets have in common, or that one of them has and the other has not. -/
  | operation (left right : ClassSet)

namespace Pattern.ClassSet

def ofMembers : List ClassSet → ClassSet
  | [] => .empty
  | [member] => member
  | members => .union members

mutual

def depth : ClassSet → Nat
  | .bracketed _ set => set.depth + 1
  | .union members => depthOfAll members + 1
  | .operation left right => max left.depth right.depth + 1
  | .empty | .literal _ | .range _ _ | .named _ | .kind _ => 0

def depthOfAll : List ClassSet → Nat
  | [] => 0
  | member :: members => max member.depth (depthOfAll members)

end

end Pattern.ClassSet

inductive Pattern where
  | empty
  | switch (change : Pattern.ModeChange)
  | single (sign : Pattern.Sign)
  | oneOf (isNegated : Bool) (set : Pattern.ClassSet)
  | repeated (inner : Pattern)
  | group (change : Pattern.ModeChange) (inner : Pattern)
  | sequence (parts : List Pattern)
  | choice (branches : List Pattern)

namespace Pattern

def ofParts : List Pattern → Pattern
  | [] => .empty
  | [part] => part
  | parts => .sequence parts

def ofBranches : List Pattern → Pattern
  | [] => .empty
  | [branch] => branch
  | branches => .choice branches

mutual

def depth : Pattern → Nat
  | .oneOf _ set => set.depth + 1
  | .repeated inner => inner.depth + 1
  | .group _ inner => inner.depth + 1
  | .sequence parts => depthOfAll parts + 1
  | .choice branches => depthOfAll branches + 1
  | .empty | .switch _ | .single _ => 0

def depthOfAll : List Pattern → Nat
  | [] => 0
  | part :: parts => max part.depth (depthOfAll parts)

end

end Pattern

end KeyStore
