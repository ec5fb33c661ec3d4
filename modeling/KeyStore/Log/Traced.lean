import KeyStore.Log.Event

/-!
# Traced computations

An outcome together with the events on the way to it. A fault ends the work, and the events before
it remain.
-/

namespace KeyStore.Log

/-- An outcome with the events on the way to it. -/
structure Traced (ε α : Type) where
  events : List Event
  outcome : Except ε α

namespace Traced

variable {ε α β : Type}

def ofOutcome (outcome : Except ε α) : Traced ε α := ⟨[], outcome⟩

def emit (event : Event) : Traced ε Unit := ⟨[event], .ok ()⟩

def andThen (first : Traced ε α) (next : α → Traced ε β) : Traced ε β :=
  match first.outcome with
  | .error fault => ⟨first.events, .error fault⟩
  | .ok value => ⟨first.events ++ (next value).events, (next value).outcome⟩

instance : Monad (Traced ε) where
  pure value := ofOutcome (.ok value)
  bind := andThen

theorem bind_of_ok {first : Traced ε α} {value : α} (outcome : first.outcome = .ok value)
    (next : α → Traced ε β) :
    first >>= next = ⟨first.events ++ (next value).events, (next value).outcome⟩ := by
  show andThen first next = _
  rw [andThen, outcome]

theorem bind_of_error {first : Traced ε α} {fault : ε} (outcome : first.outcome = .error fault)
    (next : α → Traced ε β) :
    first >>= next = ⟨first.events, .error fault⟩ := by
  show andThen first next = _
  rw [andThen, outcome]

@[simp] theorem outcome_pure (value : α) : (pure value : Traced ε α).outcome = .ok value :=
  rfl

@[simp] theorem outcome_ofOutcome (outcome : Except ε α) : (ofOutcome outcome).outcome = outcome :=
  rfl

@[simp] theorem outcome_emit (event : Event) : (emit event : Traced ε Unit).outcome = .ok () :=
  rfl

@[simp] theorem outcome_bind (first : Traced ε α) (next : α → Traced ε β) :
    (first >>= next).outcome = first.outcome.bind fun value => (next value).outcome := by
  cases ended : first.outcome with
  | error fault => rw [bind_of_error ended]; rfl
  | ok value => rw [bind_of_ok ended]; rfl

theorem mem_events_bind {first : Traced ε α} {next : α → Traced ε β} {event : Event} :
    event ∈ (first >>= next).events ↔
      event ∈ first.events ∨
        ∃ value, first.outcome = .ok value ∧ event ∈ (next value).events := by
  cases ended : first.outcome with
  | error fault => simp [bind_of_error ended]
  | ok value => simp [bind_of_ok ended]

theorem events_bind_of_silent {first : Traced ε α} {next : α → Traced ε β}
    (silent : ∀ value, (next value).events = []) : (first >>= next).events = first.events := by
  cases ended : first.outcome with
  | error fault => rw [bind_of_error ended]
  | ok value => rw [bind_of_ok ended, silent, List.append_nil]

def mapFault {δ : Type} (reword : ε → δ) (traced : Traced ε α) : Traced δ α :=
  ⟨traced.events, traced.outcome.mapError reword⟩

end Traced

end KeyStore.Log
