import KeyStore.Log.Event
import KeyStore.Pattern.Meaning
import KeyStore.Text.Blank
import KeyStore.Text.Fields
import KeyStore.Text.Utf8

/-!
# Rules of log filters

A rule is for the events of some origin, or for those that have some field, and says up to which
level they are logged. It is written `origin[span{field=value}]=level`, where every part may be
missing; a word that stands alone is a level, or else an origin.
-/

namespace KeyStore.Log

/-- The least grave level that is logged, if any is. -/
abbrev Threshold := Option Level

def Threshold.admits (threshold : Threshold) (level : Level) : Bool :=
  match threshold with
  | some least => level.rank ≤ least.rank
  | none => false

def namedThresholds : List (List Char × Threshold) :=
  [("off".toList, none), ("error".toList, some .error), ("warn".toList, some .warn),
    ("info".toList, some .info), ("debug".toList, some .debug), ("trace".toList, some .trace)]

def numberedThresholds : List Threshold :=
  [none, some .error, some .warn, some .info, some .debug, some .trace]

def digitsNumber (digits : List Char) : Nat :=
  digits.foldl (fun number digit => number * 10 + (digit.toNat - '0'.toNat)) 0

def dropPlus : List Char → List Char
  | '+' :: rest => rest
  | text => text

/-- The threshold that a number stands for. A plus sign may stand before it. -/
def numberedThreshold? (text : List Char) : Option Threshold :=
  let digits := dropPlus text
  if digits ≠ [] ∧ digits.all Char.isDigit then numberedThresholds[digitsNumber digits]? else none

/-- The threshold that a text names, in letters of either case or as a number. -/
def threshold? (text : List Char) : Option Threshold :=
  (numberedThreshold? text).or (namedThresholds.lookup (text.map Char.toLower))

/-- The threshold behind an equals sign. Nothing stands for everything. -/
def thresholdOrAll? (text : List Char) : Option Threshold :=
  if text = [] then some (some .trace) else threshold? text

structure FieldMark where
  name : String
  hasValue : Bool
deriving DecidableEq, Repr

/-- Whether a text is a number without a sign: digits with a point and an exponent, or a word. -/
def isUnsignedNumber (text : List Char) : Bool :=
  let rest := text.dropWhile Char.isDigit
  let (fraction, rest) := match rest with
    | '.' :: behind => (behind.takeWhile Char.isDigit, behind.dropWhile Char.isDigit)
    | _ => ([], rest)
  let exponent := match rest with
    | sign :: digits =>
        let digits := if digits.head? = some '-' then digits.drop 1 else dropPlus digits
        (sign = 'e' || sign = 'E') && digits ≠ [] && digits.all Char.isDigit
    | [] => true
  ["inf".toList, "infinity".toList, "nan".toList].contains (text.map Char.toLower) ||
    (text.takeWhile Char.isDigit ++ fraction ≠ [] && exponent)

/-- Whether a text can stand for the value of a field: as a pattern, or as a number. Of the numbers
only those with a plus sign are no patterns. -/
def isFieldValue (text : List Char) : Bool :=
  Pattern.isWellFormed text || (text.head? = some '+' && isUnsignedNumber (text.drop 1))

def FieldMark.parse? (text : List Char) : Option FieldMark :=
  match text, cutFields '=' text with
  | [], _ => none
  | _, (name, []) => some ⟨String.ofList name, false⟩
  | _, (name, value :: _) =>
      if isFieldValue value then some ⟨String.ofList name, true⟩ else none

inductive Rule where
  /-- For the events whose origin starts with the given text, or for all, as far as they have the
  field. -/
  | events (origin field : Option String) (threshold : Threshold)
  /-- For events inside of spans that have a name or a field of some value, of which there are
  none. -/
  | spans
deriving DecidableEq, Repr

def Rule.ofParts (origin span : Option String) (field : Option FieldMark) (threshold : Threshold) :
    Rule :=
  match span, field with
  | none, none => .events origin none threshold
  | none, some ⟨name, false⟩ => .events origin (some name) threshold
  | _, _ => .spans

/-- The rule of a text that is a level, or else an origin of which everything is logged. -/
def Rule.ofWord (word : String) : Rule :=
  match threshold? word.toList with
  | some threshold => .events none none threshold
  | none => .events (some word) none (some .trace)

/-- A written rule. The marks between its parts are looked for without the blanks around it, and
the parts are cut from all of it at the places of the marks. -/
structure WrittenRule where
  whole : Bytes
  /-- The rule without the blanks around it. -/
  marked : Bytes
deriving DecidableEq, Repr

def mark (char : Char) : UInt8 := UInt8.ofNat char.toNat

namespace WrittenRule

def ofText (text : List Char) : WrittenRule :=
  ⟨Utf8.encode (String.ofList text), Utf8.encode (String.ofList (trimBlanks text))⟩

/-- The first place from `start` on where one of some marks stands, and otherwise the end. -/
def find (rule : WrittenRule) (start : Nat) (marks : List Char) : Nat :=
  start + ((rule.marked.drop start).takeWhile fun byte => !(marks.map mark).contains byte).length

def hasMark (rule : WrittenRule) (place : Nat) (char : Char) : Bool :=
  rule.marked[place]? = some (mark char)

def part? (rule : WrittenRule) (start stop : Nat) : Option String :=
  Utf8.decode? ((rule.whole.drop start).take (stop - start))

def rest? (rule : WrittenRule) (start : Nat) : Option String :=
  Utf8.decode? (rule.whole.drop start)

def thresholdAt? (rule : WrittenRule) (place : Nat) : Option Threshold := do
  thresholdOrAll? (← rule.rest? (place + 1)).toList

def thresholdBehind? (rule : WrittenRule) (place : Nat) : Option Threshold :=
  if rule.hasMark (place + 1) '=' then rule.thresholdAt? (place + 1)
  else if rule.marked.length = place + 1 then some (some .trace)
  else none

def readSpan? (rule : WrittenRule) (origin : Option String) (place : Nat) : Option Rule := do
  let behindSpan := rule.find (place + 1) [']', '\x7b']
  let span ← rule.part? (place + 1) behindSpan
  if rule.hasMark behindSpan ']' then
    return .ofParts origin (some span) none (← rule.thresholdBehind? behindSpan)
  else
    let behindField := rule.find (behindSpan + 1) ['\x7d']
    let field ← FieldMark.parse? (← rule.part? (behindSpan + 1) behindField).toList
    if rule.hasMark behindField '\x7d' ∧ rule.hasMark (behindField + 1) ']' then
      let threshold ← rule.thresholdBehind? (behindField + 1)
      return .ofParts origin (if span = "" then none else some span) (some field) threshold
    else
      none

def readWord? (rule : WrittenRule) : Option Rule := do
  let place := rule.find 0 ['=', '[']
  if rule.hasMark place '=' then
    return .ofParts (← rule.part? 0 place) none none (← rule.thresholdAt? place)
  else if rule.hasMark place '[' then
    rule.readSpan? (← rule.part? 0 place) place
  else
    return .ofWord (← rule.rest? 0)

end WrittenRule

def startsWord (char : Char) : Bool :=
  char = '-' || char = ':' || char = '_' || isAlphanumeric char

def Rule.parse? (text : List Char) : Option Rule :=
  match trimBlanks text with
  | [] => none
  | first :: _ =>
      if first = '[' then (WrittenRule.ofText text).readSpan? none 0
      else if startsWord first then (WrittenRule.ofText text).readWord?
      else none

/-- How closely a rule picks its events, the origin before the field, together with its threshold;
`none` if it does not apply to an event. -/
def Rule.match? (event : Event) : Rule → Option ((Nat × Nat) × Threshold)
  | .spans => none
  | .events origin field threshold => do
      let start ← match origin with
        | none => some 0
        | some start =>
            if start.toList.isPrefixOf event.origin.toList then some (start.utf8ByteSize + 1)
            else none
      let place ← match field with
        | none => some 0
        | some name => (event.fields.idxOf? name).map (· + 1)
      return ((start, place), threshold)

end KeyStore.Log
