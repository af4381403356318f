/-!
# Outcomes

A request that succeeds has succeeded in all of its steps.
-/

namespace Waymark

variable {ε α β : Type}

theorem of_map_ok {outcome : Except ε α} {f : α → β} {result : β}
    (ok : outcome.map f = .ok result) : ∃ value, outcome = .ok value ∧ f value = result := by
  cases outcome with
  | error fault => cases ok
  | ok value => exact ⟨value, rfl, Except.ok.inj ok⟩

theorem of_bind_ok {outcome : Except ε α} {next : α → Except ε β} {result : β}
    (ok : outcome >>= next = .ok result) : ∃ value, outcome = .ok value ∧ next value = .ok result := by
  cases outcome with
  | error fault => cases ok
  | ok value => exact ⟨value, rfl, ok⟩

end Waymark
