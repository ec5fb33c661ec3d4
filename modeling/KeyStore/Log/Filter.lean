import KeyStore.Log.Rule

/-!
# Log filters

Which events are logged. A filter is a list of rules, each for some events and up to some level; of
the rules that apply to an event the closest decides. Events to which no rule applies are not
logged.
-/

namespace KeyStore.Log

structure Filter where
  rules : List Rule
deriving DecidableEq, Repr

namespace Filter

def upTo (level : Level) : Filter := ⟨[.events none none (some level)]⟩

/-- The filter that a text writes: rules with commas between them. No rules admit errors. -/
def parse? (text : String) : Option Filter :=
  match (splitFields ',' text.toList).filter (· ≠ []) with
  | [] => some (upTo .error)
  | pieces => (pieces.mapM Rule.parse?).map fun rules => ⟨rules⟩

/-- The filter of a setting. Without one, and if it is malformed, warnings and errors are logged. -/
def ofSetting (setting : Option String) : Filter :=
  (setting.bind parse?).getD (upTo .warn)

/-- Whether the first pair comes before the second, or is the same. -/
def atMost (left right : Nat × Nat) : Bool :=
  left.1 < right.1 || (left.1 = right.1 && left.2 ≤ right.2)

/-- The closest of two rules, of equally close ones the later. -/
def closer (earlier later : Option ((Nat × Nat) × Threshold)) : Option ((Nat × Nat) × Threshold) :=
  match earlier, later with
  | some (near, threshold), some (other, replacement) =>
      if atMost near other then some (other, replacement) else some (near, threshold)
  | some found, none => some found
  | none, found => found

def threshold (filter : Filter) (event : Event) : Threshold :=
  match (filter.rules.map (Rule.match? event)).foldl closer none with
  | some (_, threshold) => threshold
  | none => none

def admits (filter : Filter) (event : Event) : Bool :=
  (filter.threshold event).admits event.level

end Filter

end KeyStore.Log
