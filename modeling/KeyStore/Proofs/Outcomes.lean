/-!
# Outcomes that are values

What a chain of calls that has a value is made of.
-/

namespace KeyStore

variable {ε ε' α β : Type}

theorem exists_of_bind_eq_ok {outcome : Except ε α} {next : α → Except ε β} {result : β}
    (bound : outcome >>= next = .ok result) :
    ∃ value, outcome = .ok value ∧ next value = .ok result := by
  cases outcome with
  | error fault => contradiction
  | ok value => exact ⟨value, rfl, bound⟩

theorem exists_of_map_eq_ok {outcome : Except ε α} {make : α → β} {result : β}
    (mapped : outcome.map make = .ok result) :
    ∃ value, outcome = .ok value ∧ make value = result := by
  cases outcome with
  | error fault => contradiction
  | ok value => exact ⟨value, rfl, Except.ok.inj mapped⟩

theorem eq_ok_of_mapError {outcome : Except ε α} {reword : ε → ε'} {value : α}
    (reworded : outcome.mapError reword = .ok value) : outcome = .ok value := by
  cases outcome with
  | error fault => contradiction
  | ok found => rw [Except.ok.inj reworded]

end KeyStore
