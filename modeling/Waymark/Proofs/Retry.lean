import Waymark.Retry
/-!
# Repeated requests

A request is made again as long as its file is held by another program. All calls but the last one
find the file held, the last one is the only one whose outcome counts, and there are ten at most.
-/

namespace Waymark.Retry

variable {α β : Type} {outcome : Nat → Except IoFault α}

theorem isTransient_iff {fault : IoFault} : isTransient fault = true ↔ fault = .wouldBlock :=
  decide_eq_true_iff

theorem runFrom_held {call : Nat} (held : outcome call = .error .wouldBlock) (more : Nat) :
    runFrom outcome call (more + 1) = runFrom outcome (call + 1) more := by
  rw [runFrom, held]
  rfl

theorem runFrom_settled {call : Nat} (settled : outcome call ≠ .error .wouldBlock) (more : Nat) :
    runFrom outcome call more = (call, outcome call) := by
  cases more with
  | zero => rfl
  | succ more =>
      unfold runFrom
      cases result : outcome call with
      | ok value => rfl
      | error fault =>
          have lasting : ¬isTransient fault = true := fun transient =>
            settled (isTransient_iff.mp transient ▸ result)
          exact if_neg lasting

/-- From its first call on, a request is made until one ends otherwise than by the file being held,
or until the limit. -/
structure Stretch (outcome : Nat → Except IoFault α) (first limit : Nat)
    (made : Nat × Except IoFault α) : Prop where
  begun : first ≤ made.1
  limited : made.1 ≤ limit
  result : made.2 = outcome made.1
  held : ∀ call, first ≤ call → call < made.1 → outcome call = .error .wouldBlock
  settled : made.1 < limit → outcome made.1 ≠ .error .wouldBlock

theorem stretch_runFrom (outcome : Nat → Except IoFault α) (call more : Nat) :
    Stretch outcome call (call + more) (runFrom outcome call more) := by
  induction more generalizing call with
  | zero =>
      refine ⟨Nat.le_refl _, Nat.le_refl _, rfl, fun other after before => ?_, fun short => ?_⟩
      · exact absurd before (Nat.not_lt.mpr after)
      · exact absurd short (Nat.lt_irrefl _)
  | succ more ih =>
      by_cases held : outcome call = .error .wouldBlock
      · rw [runFrom_held held, show call + (more + 1) = call + 1 + more by omega]
        obtain ⟨begun, limited, result, earlier, settled⟩ := ih (call + 1)
        refine ⟨Nat.le_of_succ_le begun, limited, result, fun other after before => ?_, settled⟩
        rcases Nat.eq_or_lt_of_le after with rfl | later
        · exact held
        · exact earlier other later before
      · rw [runFrom_settled held]
        refine ⟨Nat.le_refl _, Nat.le_add_right _ _, rfl, fun other after before => ?_, fun _ => held⟩
        exact absurd before (Nat.not_lt.mpr after)

theorem stretch_run (outcome : Nat → Except IoFault α) :
    Stretch outcome 1 maximumCalls (run outcome) :=
  stretch_runFrom outcome 1 (maximumCalls - 1)

/-- What is made of the outcomes does not matter, as long as it shows which calls are refused. -/
theorem runFrom_map {change : Except IoFault α → Except IoFault β}
    (keeps : ∀ result, change result = .error .wouldBlock ↔ result = .error .wouldBlock)
    (outcome : Nat → Except IoFault α) (call more : Nat) :
    runFrom (fun call => change (outcome call)) call more =
      ((runFrom outcome call more).1, change (runFrom outcome call more).2) := by
  induction more generalizing call with
  | zero => rfl
  | succ more ih =>
      by_cases held : outcome call = .error .wouldBlock
      · rw [runFrom_held held, runFrom_held ((keeps _).mpr held), ih]
      · rw [runFrom_settled held, runFrom_settled (mt (keeps _).mp held)]

end Waymark.Retry
