import KeyStore.Json.Skip

/-!
# Shapes

A shape says what a JSON value has to look like: a string, a truth value, a number within a bound,
one of a few tags, an array of values of one shape, or a record. `Shape.Datum` is the type of the
values of a shape. Reading and writing are defined once for all shapes; written values have no
blanks, and the members of a record stand in the order of its fields.

A record is read from an object or from an array. An object has its members in any order, may have
further members, and lacks no field; an array has the values of the fields in their order and
nothing else. In a sparse record a field that is missing is blank: an empty string, zero, and so on.
-/

namespace KeyStore.Json

mutual

/-- What a JSON value has to look like. -/
inductive Shape where
  | text
  | flag
  /-- A number below `bound`; messages call its type `name`. -/
  | count (name : String) (bound : Nat)
  | choice (tags : List String)
  | sequence (element : Shape)
  /-- A record; messages call it `title`. -/
  | record (title : String) (sparse : Bool) (fields : Fields)

inductive Fields where
  | nil
  | cons (name : String) (shape : Shape) (rest : Fields)

end

mutual

def Shape.Datum : Shape → Type
  | .text => String
  | .flag => Bool
  | .count _ bound => Fin bound
  | .choice tags => Fin tags.length
  | .sequence element => List element.Datum
  | .record _ _ fields => fields.Data

def Fields.Data : Fields → Type
  | .nil => Unit
  | .cons _ shape rest => shape.Datum × rest.Data

end

def Fields.Partial : Fields → Type
  | .nil => Unit
  | .cons _ shape rest => Option shape.Datum × rest.Partial

def Fields.length : Fields → Nat
  | .nil => 0
  | .cons _ _ rest => rest.length + 1

def Fields.unread : (fields : Fields) → fields.Partial
  | .nil => ()
  | .cons _ _ rest => (none, rest.unread)

/-! ## Writing -/

def writeFlag : Bool → List Char
  | true => ['t', 'r', 'u', 'e']
  | false => ['f', 'a', 'l', 's', 'e']

mutual

def Shape.write : (shape : Shape) → shape.Datum → List Char
  | .text, value => writeText (String.toList value)
  | .flag, value => writeFlag value
  | .count _ _, value => Nat.toDigits 10 (Fin.val value)
  | .choice tags, value => writeText (tags.get value).toList
  | .sequence element, values =>
      '[' :: List.intercalate [','] (List.map element.write values) ++ [']']
  | .record _ _ fields, values =>
      '\x7b' :: List.intercalate [','] (fields.writeMembers values) ++ ['\x7d']

def Fields.writeMembers : (fields : Fields) → fields.Data → List (List Char)
  | .nil, _ => []
  | .cons name shape rest, values =>
      (writeText name.toList ++ ':' :: shape.write values.1) :: rest.writeMembers values.2

end

mutual

def Shape.blank? : (shape : Shape) → Option shape.Datum
  | .text => some ""
  | .flag => some false
  | .count _ bound => if positive : 0 < bound then some ⟨0, positive⟩ else none
  | .choice _ => none
  | .sequence _ => some []
  | .record _ _ fields => fields.blank?

def Fields.blank? : (fields : Fields) → Option fields.Data
  | .nil => some ()
  | .cons _ shape rest => do
      let value ← shape.blank?
      let values ← rest.blank?
      return (value, values)

end

def Shape.absent (sparse : Bool) (name : String) (shape : Shape) : Except Cause shape.Datum :=
  match sparse, shape.blank? with
  | true, some value => .ok value
  | _, _ => .error (.missingField name)

/-- The values of the fields of a record once its members have been read. -/
def Fields.complete (sparse : Bool) : (fields : Fields) → fields.Partial → Except Cause fields.Data
  | .nil, _ => .ok ()
  | .cons name shape rest, values =>
      match values.1 with
      | some value =>
          match rest.complete sparse values.2 with
          | .ok others => .ok (value, others)
          | .error cause => .error cause
      | none =>
          match shape.absent sparse name with
          | .ok value =>
              match rest.complete sparse values.2 with
              | .ok others => .ok (value, others)
              | .error cause => .error cause
          | .error cause => .error cause

/-- A fault that names the kind of the value at the start of a text that holds no value of the
kind `expected`. The value is read first, unless it is an array or an object. -/
def wrongKind {α : Type} (expected : String) (text : List Char) : Except Fault α :=
  match text with
  | [] => faultHere .endInValue []
  | char :: rest =>
      if char = 'n' then
        match readIdent ['u', 'l', 'l'] rest with
        | .ok behind => faultHere (.invalidType .null expected) behind
        | .error fault => .error fault
      else if char = 't' then
        match readIdent ['r', 'u', 'e'] rest with
        | .ok behind => faultHere (.invalidType (.flag true) expected) behind
        | .error fault => .error fault
      else if char = 'f' then
        match readIdent ['a', 'l', 's', 'e'] rest with
        | .ok behind => faultHere (.invalidType (.flag false) expected) behind
        | .error fault => .error fault
      else if char = '-' then
        match readNumber true rest with
        | .ok (number, behind) => faultHere (.invalidType number.found expected) behind
        | .error fault => .error fault
      else if isDigit char then
        match readNumber false text with
        | .ok (number, behind) => faultHere (.invalidType number.found expected) behind
        | .error fault => .error fault
      else if char = '"' then
        match readText rest with
        | .ok (chars, behind) => faultHere (.invalidType (.text chars) expected) behind
        | .error fault => .error fault
      else if char = '[' then
        faultHere (.invalidType .sequence expected) text
      else if char = '\x7b' then
        faultHere (.invalidType .map expected) text
      else
        faultPast .expectedValue text

/-! ## Reading values without parts -/

/-- Reads a string; messages call it `expected`. -/
def readString (expected : String) (text : List Char) : Except Fault (List Char × List Char) :=
  match skipBlanks text with
  | '"' :: rest => readText rest
  | rest => wrongKind expected rest

def readFlag (text : List Char) : Except Fault (Bool × List Char) :=
  match skipBlanks text with
  | 't' :: rest =>
      match readIdent ['r', 'u', 'e'] rest with
      | .ok behind => .ok (true, behind)
      | .error fault => .error fault
  | 'f' :: rest =>
      match readIdent ['a', 'l', 's', 'e'] rest with
      | .ok behind => .ok (false, behind)
      | .error fault => .error fault
  | rest => wrongKind "a boolean" rest

/-- A number as a natural number below `bound`; `behind` is the text behind it. -/
def countOfNumber (name : String) (bound : Nat) (number : Number) (behind : List Char) :
    Except Fault (Fin bound × List Char) :=
  match number with
  | .natural value =>
      if small : value < bound then .ok (⟨value, small⟩, behind)
      else faultHere (.invalidValue number.found name) behind
  | .negation _ => faultHere (.invalidValue number.found name) behind
  | .floating _ _ => faultHere (.invalidType number.found name) behind

def readCount (name : String) (bound : Nat) (text : List Char) :
    Except Fault (Fin bound × List Char) :=
  match skipBlanks text with
  | [] => faultHere .endInValue []
  | char :: rest =>
      if char = '-' then
        match readNumber true rest with
        | .ok (number, behind) => countOfNumber name bound number behind
        | .error fault => .error fault
      else if isDigit char then
        match readNumber false (char :: rest) with
        | .ok (number, behind) => countOfNumber name bound number behind
        | .error fault => .error fault
      else
        wrongKind name (char :: rest)

/-- The tag that a string names; `behind` is the text behind the string. -/
def choiceOfTag (tags : List String) (tag behind : List Char) :
    Except Fault (Fin tags.length × List Char) :=
  match tags.finIdxOf? (String.ofList tag) with
  | some index => .ok (index, behind)
  | none => faultHere (.unknownTag tag tags) behind

def readNull (text : List Char) : Except Fault (List Char) :=
  match skipBlanks text with
  | 'n' :: rest => readIdent ['u', 'l', 'l'] rest
  | rest => wrongKind "unit" rest

/-- Reads the name of the only member of an object from behind the opening brace on. -/
def readOnlyName (text : List Char) : Except Fault (List Char × List Char) :=
  match skipBlanks text with
  | [] => faultHere .endInObject []
  | char :: rest =>
      if char = '"' then readText rest
      else if char = '\x7d' then faultPast .expectedValue (char :: rest)
      else faultPast .keyNotString (char :: rest)

/-- Reads a tag: a string, or an object whose only member has the tag as its name and `null` as its
value. -/
def readChoice (tags : List String) (text : List Char) :
    Except Fault (Fin tags.length × List Char) :=
  match skipBlanks text with
  | [] => faultHere .endInValue []
  | char :: rest =>
      if char = '"' then do
        let (tag, behind) ← readText rest
        choiceOfTag tags tag behind
      else if char = '\x7b' then do
        let (tag, behind) ← readOnlyName rest
        let (index, behind) ← choiceOfTag tags tag behind
        let behind ← readColon behind
        let behind ← readNull behind
        match skipBlanks behind with
        | '\x7d' :: behind => return (index, behind)
        | [] => faultHere .endInObject []
        | behind => faultHere .expectedValue behind
      else
        faultPast .expectedValue (char :: rest)

/-! ## Reading parts -/

inductive Next where
  | part (text : List Char)
  /-- The closing bracket, which is unread at the start of this text. -/
  | close (text : List Char)
deriving DecidableEq, Repr

/-- Looks for an element behind the opening bracket, or behind a preceding element. -/
def nextElement (first : Bool) (text : List Char) : Except Fault Next :=
  match skipBlanks text with
  | [] => faultHere .endInList []
  | char :: rest =>
      if char = ']' then
        .ok (.close (char :: rest))
      else if first then
        .ok (.part (char :: rest))
      else if char = ',' then
        match skipBlanks rest with
        | [] => faultHere .endInValue []
        | next :: behind =>
            if next = ']' then faultPast .trailingComma (next :: behind)
            else .ok (.part (next :: behind))
      else
        faultPast .expectedCommaOrBracket (char :: rest)

/-- The text behind the closing bracket of an array of which every element has been read. -/
def endList (text : List Char) : Except Fault (List Char) :=
  match skipBlanks text with
  | [] => faultHere .endInList []
  | char :: rest =>
      if char = ']' then
        .ok rest
      else if char = ',' then
        match skipBlanks rest with
        | next :: behind =>
            if next = ']' then faultPast .trailingComma (next :: behind)
            else faultPast .trailingCharacters (next :: behind)
        | [] => faultHere .trailingCharacters []
      else
        faultPast .trailingCharacters (char :: rest)

/-- Reads the elements of an array up to its closing bracket. Each element takes at least one
character, so the length of the text is enough as a budget. -/
def readElements {α : Type} (readElement : List Char → Except Fault (α × List Char)) :
    (budget : Nat) → (first : Bool) → List Char → Except Fault (List α × List Char)
  | 0, _, _ => .error ⟨.endInList, 0⟩
  | budget + 1, first, text =>
      match nextElement first text with
      | .error fault => .error fault
      | .ok (.close rest) => .ok ([], rest)
      | .ok (.part start) =>
          match readElement start with
          | .error fault => .error fault
          | .ok (value, behind) =>
              match readElements readElement budget false behind with
              | .error fault => .error fault
              | .ok (values, behind) => .ok (value :: values, behind)

/-- Looks for a member behind the opening brace, or behind a preceding member. A member is read from
behind the opening quote of its name. -/
def nextMember (first : Bool) (text : List Char) : Except Fault Next :=
  match skipBlanks text with
  | [] => faultHere .endInObject []
  | char :: rest =>
      if char = '\x7d' then
        .ok (.close (char :: rest))
      else if first then
        if char = '"' then .ok (.part rest) else faultPast .keyNotString (char :: rest)
      else if char = ',' then
        match skipBlanks rest with
        | [] => faultHere .endInValue []
        | next :: behind =>
            if next = '"' then .ok (.part behind)
            else if next = '\x7d' then faultPast .trailingComma (next :: behind)
            else faultPast .keyNotString (next :: behind)
      else
        faultPast .expectedCommaOrBrace (char :: rest)

/-- A fault of an object as a whole, reported behind the closing brace if that is next. What follows
otherwise may be at fault first. -/
def faultInObject {α : Type} (cause : Cause) (text : List Char) : Except Fault α :=
  match skipBlanks text with
  | '\x7d' :: rest => faultHere cause rest
  | rest => faultHere cause rest

/-- Reads the members of an object up to its closing brace. `readMember` takes the name of a member
and the text behind it, and changes what has been read so far. Each member takes at least one
character, so the length of the text is enough as a budget. -/
def readMembers {α : Type}
    (readMember : (name : List Char) → α → List Char → Except Fault (α × List Char)) :
    (budget : Nat) → (first : Bool) → α → List Char → Except Fault (α × List Char)
  | 0, _, _, _ => .error ⟨.endInObject, 0⟩
  | budget + 1, first, state, text =>
      match nextMember first text with
      | .error fault => .error fault
      | .ok (.close rest) => .ok (state, rest)
      | .ok (.part start) =>
          match readText start with
          | .error fault => .error fault
          | .ok (name, behind) =>
              match readMember name state behind with
              | .error fault => .error fault
              | .ok (state, behind) => readMembers readMember budget false state behind

mutual

/-- Reads a value of a shape at the start of a text, and gives the text behind it. -/
def Shape.read : (shape : Shape) → List Char → Except Fault (shape.Datum × List Char)
  | .text, text =>
      match readString "a string" text with
      | .ok (chars, behind) => .ok (String.ofList chars, behind)
      | .error fault => .error fault
  | .flag, text => readFlag text
  | .count name bound, text => readCount name bound text
  | .choice tags, text => readChoice tags text
  | .sequence element, text =>
      match skipBlanks text with
      | '[' :: rest =>
          match readElements element.read (rest.length + 1) true rest with
          | .ok (values, behind) =>
              match endList behind with
              | .ok behind => .ok (values, behind)
              | .error fault => .error fault
          | .error fault => .error fault
      | rest => wrongKind "a sequence" rest
  | .record title sparse fields, text =>
      match skipBlanks text with
      | '[' :: rest => fields.readArray title sparse fields.length 0 rest
      | '\x7b' :: rest =>
          match readMembers fields.readMember (rest.length + 1) true fields.unread rest with
          | .ok (values, behind) =>
              match fields.complete sparse values with
              | .ok values => .ok (values, behind.drop 1)
              | .error cause => faultInObject cause behind
          | .error fault => .error fault
      | rest => wrongKind ("struct " ++ title) rest

/-- Reads the member `name` of a record whose fields have been read as far as `values` says; the
text starts behind the name. A member that is no field is passed over. -/
def Fields.readMember : (fields : Fields) → (name : List Char) → fields.Partial → List Char →
    Except Fault (fields.Partial × List Char)
  | .nil, _, _, text =>
      match readColon text with
      | .ok behind =>
          match skip behind with
          | .ok behind => .ok ((), behind)
          | .error fault => .error fault
      | .error fault => .error fault
  | .cons field shape rest, name, values, text =>
      if String.ofList name = field then
        match values.1 with
        | some _ => faultInObject (.duplicateField field) text
        | none =>
            match readColon text with
            | .ok behind =>
                match shape.read behind with
                | .ok (value, behind) => .ok ((some value, values.2), behind)
                | .error fault => .error fault
            | .error fault => .error fault
      else
        match rest.readMember name values.2 text with
        | .ok (others, behind) => .ok ((values.1, others), behind)
        | .error fault => .error fault

/-- Reads the elements of an array that stands for a record of `count` fields, from field `index`
on. -/
def Fields.readArray (title : String) (sparse : Bool) (count : Nat) :
    (fields : Fields) → (index : Nat) → List Char → Except Fault (fields.Data × List Char)
  | .nil, _, text =>
      match endList text with
      | .ok behind => .ok ((), behind)
      | .error fault => .error fault
  | .cons _ shape rest, index, text =>
      match nextElement (index = 0) text with
      | .error fault => .error fault
      | .ok (.part start) =>
          match shape.read start with
          | .error fault => .error fault
          | .ok (value, behind) =>
              match rest.readArray title sparse count (index + 1) behind with
              | .error fault => .error fault
              | .ok (values, behind) => .ok ((value, values), behind)
      | .ok (.close behind) =>
          match sparse, shape.blank? with
          | true, some value =>
              match rest.readArray title sparse count (index + 1) behind with
              | .error fault => .error fault
              | .ok (values, behind) => .ok ((value, values), behind)
          | _, _ => faultHere (.invalidLength index title count) (behind.drop 1)

end

def Shape.parse (shape : Shape) (text : String) : Except LocatedFault shape.Datum :=
  match shape.read text.toList with
  | .error fault => .error (fault.locate text)
  | .ok (value, behind) =>
      match skipBlanks behind with
      | [] => .ok value
      | rest => .error ((Fault.past .trailingCharacters rest).locate text)

end KeyStore.Json
