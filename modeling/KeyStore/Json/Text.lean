import KeyStore.Json.Blank
import KeyStore.Text.HexDigit

/-!
# Strings of JSON

Strings between double quotes. Reading starts behind the opening quote. The characters of a string
are its own, those of escapes, or those of pairs of escapes that name the halves of a surrogate
pair. Writing escapes quotes, backslashes and control characters and nothing else.
-/

namespace KeyStore.Json

def writeChar (char : Char) : List Char :=
  if char = '"' then ['\\', '"']
  else if char = '\\' then ['\\', '\\']
  else if char = '\x08' then ['\\', 'b']
  else if char = '\x0c' then ['\\', 'f']
  else if char = '\n' then ['\\', 'n']
  else if char = '\r' then ['\\', 'r']
  else if char = '\t' then ['\\', 't']
  else if char.toNat < 0x20 then
    ['\\', 'u', '0', '0', hexDigit (char.toNat / 16), hexDigit (char.toNat % 16)]
  else [char]

def writeText (text : List Char) : List Char :=
  '"' :: text.flatMap writeChar ++ ['"']

/-- The number of four digits in base 16 at the start of a text, and the text behind them. -/
def hexNumber? : List Char → Option (Nat × List Char)
  | a :: b :: c :: d :: rest => do
      let a ← hexValue? a
      let b ← hexValue? b
      let c ← hexValue? c
      let d ← hexValue? d
      return (((a * 16 + b) * 16 + c) * 16 + d, rest)
  | _ => none

/-- Reads the four digits of an escape. A malformed escape is reported behind four bytes. -/
def readHex (text : List Char) : Except Fault (Nat × List Char) :=
  match hexNumber? text with
  | some result => .ok result
  | none =>
      if byteLength text < 4 then
        .error ⟨.endInString, 0⟩
      else
        .error ⟨.invalidEscape, byteLength text - 4⟩

def escaped? (char : Char) : Option Char :=
  if char = '"' then some '"'
  else if char = '\\' then some '\\'
  else if char = '/' then some '/'
  else if char = 'b' then some '\x08'
  else if char = 'f' then some '\x0c'
  else if char = 'n' then some '\n'
  else if char = 'r' then some '\r'
  else if char = 't' then some '\t'
  else none

def IsHighSurrogate (number : Nat) : Prop :=
  0xd800 ≤ number ∧ number ≤ 0xdbff

instance (number : Nat) : Decidable (IsHighSurrogate number) :=
  inferInstanceAs (Decidable (_ ∧ _))

def IsLowSurrogate (number : Nat) : Prop :=
  0xdc00 ≤ number ∧ number ≤ 0xdfff

instance (number : Nat) : Decidable (IsLowSurrogate number) :=
  inferInstanceAs (Decidable (_ ∧ _))

def expectInPair (expected : Char) : List Char → Except Fault (List Char)
  | [] => .error ⟨.endInString, 0⟩
  | char :: rest =>
      if char = expected then .ok rest else faultPast .unexpectedEndOfHexEscape (char :: rest)

def readLowSurrogate (high : Nat) (text : List Char) : Except Fault (Char × List Char) := do
  let text ← expectInPair '\\' text
  let text ← expectInPair 'u' text
  let (low, rest) ← readHex text
  if IsLowSurrogate low then
    return (Char.ofNat (0x10000 + (high - 0xd800) * 0x400 + (low - 0xdc00)), rest)
  else
    faultHere .loneSurrogate rest

def readEscape : List Char → Except Fault (Char × List Char)
  | [] => .error ⟨.endInString, 0⟩
  | 'u' :: rest => do
      let (number, rest) ← readHex rest
      if IsLowSurrogate number then
        faultHere .loneSurrogate rest
      else if IsHighSurrogate number then
        readLowSurrogate number rest
      else
        return (Char.ofNat number, rest)
  | char :: rest =>
      match escaped? char with
      | some plain => .ok (plain, rest)
      | none => faultPast .invalidEscape (char :: rest)

theorem hexNumber?_length {text rest : List Char} {number : Nat}
    (found : hexNumber? text = some (number, rest)) :
    rest.length < text.length := by
  unfold hexNumber? at found
  split at found
  · next a b c d tail =>
      simp only [Option.bind_eq_bind, Option.bind_eq_some_iff, Option.pure_def,
        Option.some.injEq, Prod.mk.injEq] at found
      obtain ⟨_, _, _, _, _, _, _, _, _, rfl⟩ := found
      simp only [List.length_cons]
      omega
  · contradiction

theorem readHex_length {text rest : List Char} {number : Nat}
    (read : readHex text = .ok (number, rest)) :
    rest.length < text.length := by
  unfold readHex at read
  split at read
  · next result found =>
      injection read with equality
      exact hexNumber?_length (equality ▸ found)
  · split at read <;> contradiction

theorem expectInPair_length {expected : Char} {text rest : List Char}
    (read : expectInPair expected text = .ok rest) :
    rest.length < text.length := by
  cases text with
  | nil => contradiction
  | cons char tail =>
      simp only [expectInPair, faultPast] at read
      split at read
      · injection read with equality
        simp [equality]
      · contradiction

theorem readLowSurrogate_length {high : Nat} {text rest : List Char} {char : Char}
    (read : readLowSurrogate high text = .ok (char, rest)) :
    rest.length < text.length := by
  simp only [readLowSurrogate, bind, Except.bind] at read
  split at read
  · contradiction
  · next backslash firstRead =>
      split at read
      · contradiction
      · next letter secondRead =>
          split at read
          · contradiction
          · next pair thirdRead =>
              have first := expectInPair_length firstRead
              have second := expectInPair_length secondRead
              have third := readHex_length thirdRead
              split at read
              · simp only [pure, Except.pure, Except.ok.injEq, Prod.mk.injEq] at read
                rw [← read.2]
                omega
              · contradiction

theorem readEscape_length {text rest : List Char} {char : Char}
    (read : readEscape text = .ok (char, rest)) :
    rest.length < text.length := by
  unfold readEscape at read
  split at read
  · contradiction
  · next tail =>
      simp only [bind, Except.bind] at read
      split at read
      · contradiction
      · next pair hexRead =>
          have hex := readHex_length hexRead
          split at read
          · contradiction
          · split at read
            · have low := readLowSurrogate_length read
              simp only [List.length_cons]
              omega
            · simp only [pure, Except.pure, Except.ok.injEq, Prod.mk.injEq] at read
              rw [← read.2]
              simp only [List.length_cons]
              omega
  · next letter tail _ =>
      split at read
      · simp only [Except.ok.injEq, Prod.mk.injEq] at read
        simp [← read.2]
      · contradiction

/-- Reads a string behind its opening quote, and the text behind its closing quote. -/
def readText (text : List Char) : Except Fault (List Char × List Char) :=
  match text with
  | [] => .error ⟨.endInString, 0⟩
  | char :: rest =>
      if char = '"' then
        .ok ([], rest)
      else if char = '\\' then
        match escape : readEscape rest with
        | .error fault => .error fault
        | .ok (plain, behind) =>
            have := readEscape_length escape
            match readText behind with
            | .error fault => .error fault
            | .ok (chars, behind) => .ok (plain :: chars, behind)
      else if char.toNat < 0x20 then
        faultPast .controlCharacter (char :: rest)
      else
        match readText rest with
        | .error fault => .error fault
        | .ok (chars, behind) => .ok (char :: chars, behind)
termination_by text.length

/-- The text behind an escape whose meaning does not matter; the escape is read behind its
backslash. -/
def skipEscape : List Char → Except Fault (List Char)
  | [] => .error ⟨.endInString, 0⟩
  | 'u' :: rest => do
      let (_, rest) ← readHex rest
      return rest
  | char :: rest =>
      match escaped? char with
      | some _ => .ok rest
      | none => faultPast .invalidEscape (char :: rest)

theorem skipEscape_length {text rest : List Char} (read : skipEscape text = .ok rest) :
    rest.length < text.length := by
  unfold skipEscape at read
  split at read
  · contradiction
  · next tail =>
      simp only [bind, Except.bind] at read
      split at read
      · contradiction
      · next pair hexRead =>
          have hex := readHex_length hexRead
          simp only [pure, Except.pure, Except.ok.injEq] at read
          rw [← read]
          simp only [List.length_cons]
          omega
  · next letter tail _ =>
      split at read
      · simp only [Except.ok.injEq] at read
        simp [← read]
      · contradiction

/-- The text behind a string whose characters do not matter. Halves of surrogate pairs may stand
alone in it, and a control character is reported in front of it. -/
def skipText (text : List Char) : Except Fault (List Char) :=
  match text with
  | [] => .error ⟨.endInString, 0⟩
  | char :: rest =>
      if char = '"' then
        .ok rest
      else if char = '\\' then
        match escape : skipEscape rest with
        | .error fault => .error fault
        | .ok behind =>
            have := skipEscape_length escape
            skipText behind
      else if char.toNat < 0x20 then
        faultHere .controlCharacter (char :: rest)
      else
        skipText rest
termination_by text.length

end KeyStore.Json
