import KeyStore.Command.Failure
import KeyStore.Log.Traced

/-!
# Actions

A command under way. What it has printed stays printed if it fails later on.
-/

namespace KeyStore

open Log

/-- A computation that may print. -/
structure Action (α : Type) where
  printed : List String
  traced : Traced Failure α

namespace Action

variable {α β : Type}

def ofTraced (traced : Traced Failure α) : Action α := ⟨[], traced⟩

def ofOutcome (outcome : Except Failure α) : Action α := ofTraced (.ofOutcome outcome)

def call (reword : StoreFault → Failure) (traced : Traced StoreFault α) : Action α :=
  ofTraced (traced.mapFault reword)

def print (line : String) : Action Unit := ⟨[line], pure ()⟩

def andThen (first : Action α) (next : α → Action β) : Action β where
  printed :=
    match first.traced.outcome with
    | .ok value => first.printed ++ (next value).printed
    | .error _ => first.printed
  traced := first.traced >>= fun value => (next value).traced

instance : Monad Action where
  pure value := ofTraced (pure value)
  bind := andThen

/-- The action ends with an outcome and has printed some lines. -/
structure Ends (action : Action α) (lines : List String) (outcome : Except Failure α) : Prop where
  printed : action.printed = lines
  outcome : action.traced.outcome = outcome

namespace Ends

theorem ofTraced {traced : Traced Failure α} {outcome : Except Failure α}
    (ended : traced.outcome = outcome) : (Action.ofTraced traced).Ends [] outcome :=
  ⟨rfl, ended⟩

theorem call_ok {reword : StoreFault → Failure} {traced : Traced StoreFault α} {value : α}
    (ended : traced.outcome = .ok value) : (Action.call reword traced).Ends [] (.ok value) :=
  ofTraced (congrArg (Except.mapError reword) ended)

theorem call_error {reword : StoreFault → Failure} {traced : Traced StoreFault α}
    {fault : StoreFault} (failed : traced.outcome = .error fault) :
    (Action.call reword traced).Ends [] (.error (reword fault)) :=
  ofTraced (congrArg (Except.mapError reword) failed)

theorem print (line : String) : (Action.print line).Ends [line] (.ok ()) :=
  ⟨rfl, rfl⟩

variable {first : Action α} {next : α → Action β} {lines : List String}

theorem bind_ok {value : α} {others : List String} {outcome : Except Failure β}
    (begun : first.Ends lines (.ok value)) (finished : (next value).Ends others outcome) :
    (first >>= next).Ends (lines ++ others) outcome := by
  constructor
  · show (andThen first next).printed = _
    simp only [andThen, begun.outcome, begun.printed, finished.printed]
  · show (first.traced >>= fun value => (next value).traced).outcome = _
    rw [Traced.bind_of_ok begun.outcome]
    exact finished.outcome

theorem bind_error {failure : Failure} (failed : first.Ends lines (.error failure)) :
    (first >>= next).Ends lines (.error failure) := by
  constructor
  · show (andThen first next).printed = _
    simp only [andThen, failed.outcome, failed.printed]
  · show (first.traced >>= fun value => (next value).traced).outcome = _
    rw [Traced.bind_of_error failed.outcome]

end Ends

end Action

end KeyStore
