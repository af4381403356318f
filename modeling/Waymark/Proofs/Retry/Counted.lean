import Mathlib.Data.ENat.Lattice
import Waymark.Disk.Replace
import Waymark.Proofs.Retry
/-!
# Counted calls

The loop that repeats a request counts its calls. It ends with the first call that does not find the
file held, or with the tenth, and gives the outcome of that call.
-/

namespace Waymark

namespace Retry

variable {α σ : Type} {outcome : Nat → Except IoFault α}

/-- The number of the first call that ends otherwise than by the file being held, if there is one. -/
noncomputable def firstSettled (outcome : Nat → Except IoFault α) : ℕ∞ :=
  ⨅ call ∈ {call : ℕ | 1 ≤ call ∧ outcome call ≠ .error .wouldBlock}, (call : ℕ∞)

theorem Stretch.eq_min {limit : Nat} {made : Nat × Except IoFault α}
    (stretch : Stretch outcome 1 limit made) :
    (made.1 : ℕ∞) = min (limit : ℕ∞) (firstSettled outcome) := by
  apply le_antisymm
  · refine le_min (Nat.cast_le.mpr stretch.limited) (le_iInf₂ fun call settled => ?_)
    refine Nat.cast_le.mpr (not_lt.mp fun before => ?_)
    exact settled.2 (stretch.held call settled.1 before)
  · rcases Nat.eq_or_lt_of_le stretch.limited with full | short
    · rw [full]
      exact min_le_left _ _
    · exact min_le_of_right_le (iInf₂_le made.1 ⟨stretch.begun, stretch.settled short⟩)

/-- Calls an operation and counts the calls. It is called again if the file was held and the count
has not reached the maximum. -/
def repeatFrom (operation : σ → Except IoFault α × σ) (state : σ) (attempt : Nat) :
    Except IoFault α × σ :=
  match operation state with
  | (.error fault, after) =>
      if isTransient fault ∧ attempt < maximumCalls then
        repeatFrom operation after (attempt + 1)
      else (.error fault, after)
  | (.ok value, after) => (.ok value, after)
termination_by maximumCalls - attempt

def repeated (operation : σ → Except IoFault α × σ) (state : σ) : Except IoFault α × σ :=
  repeatFrom operation state 1

def stateAfter (operation : σ → Except IoFault α × σ) (state : σ) (calls : Nat) : σ :=
  (fun state => (operation state).2)^[calls] state

def Gives (operation : σ → Except IoFault α × σ) (state : σ) (outcome : Nat → Except IoFault α) :
    Prop :=
  ∀ call, (operation (stateAfter operation state call)).1 = outcome (call + 1)

variable {operation : σ → Except IoFault α × σ} {state : σ}

theorem stateAfter_succ (call : Nat) :
    stateAfter operation state (call + 1) = (operation (stateAfter operation state call)).2 :=
  Function.iterate_succ_apply' _ call state

theorem Gives.call (gives : Gives operation state outcome) (call : Nat) :
    operation (stateAfter operation state call) =
      (outcome (call + 1), stateAfter operation state (call + 1)) :=
  Prod.ext (gives call) (stateAfter_succ call).symm

theorem repeatFrom_eq (gives : Gives operation state outcome) {call more : Nat}
    (left : call + 1 + more = maximumCalls) :
    repeatFrom operation (stateAfter operation state call) (call + 1) =
      ((runFrom outcome (call + 1) more).2,
        stateAfter operation state (runFrom outcome (call + 1) more).1) := by
  induction more generalizing call with
  | zero =>
      rw [repeatFrom, gives.call]
      cases result : outcome (call + 1) with
      | ok value => simp [runFrom, result]
      | error fault => simp [runFrom, result, show ¬call + 1 < maximumCalls by omega]
  | succ more ih =>
      rw [repeatFrom, gives.call]
      by_cases held : outcome (call + 1) = .error .wouldBlock
      · have again : isTransient .wouldBlock = true ∧ call + 1 < maximumCalls :=
          ⟨rfl, by omega⟩
        rw [runFrom_held held, ← ih (by omega), held]
        exact if_pos again
      · rw [runFrom_settled held]
        cases result : outcome (call + 1) with
        | ok value => rfl
        | error fault =>
            have lasting : ¬(isTransient fault = true ∧ call + 1 < maximumCalls) := fun again =>
              held (isTransient_iff.mp again.1 ▸ result)
            exact if_neg lasting

theorem repeated_eq (gives : Gives operation state outcome) :
    repeated operation state = ((run outcome).2, stateAfter operation state (run outcome).1) :=
  @repeatFrom_eq _ _ outcome operation state gives 0 (maximumCalls - 1) rfl

end Retry

namespace Disk

def asContents : Except IoFault ByteArray → Except IoFault (Option ByteArray)
  | .ok contents => .ok (some contents)
  | .error .notFound => .ok none
  | .error fault => .error fault

def contentsAmid (reads : Nat → Except IoFault ByteArray) : Except Failure (Option ByteArray) :=
  match (Retry.run fun call => asContents (reads call)).2 with
  | .ok contents => .ok contents
  | .error fault => .error (.io fault)

theorem contents?_eq (disk : Disk) (path : Path) :
    disk.contents? path = contentsAmid fun _ => disk.contents path :=
  rfl

theorem asContents_held (read : Except IoFault ByteArray) :
    asContents read = .error .wouldBlock ↔ read = .error .wouldBlock := by
  rcases read with (_ | _) | _ <;> simp [asContents]

theorem contentsAmid_eq (reads : Nat → Except IoFault ByteArray) :
    contentsAmid reads = match (Retry.run reads).2 with
      | .ok contents => .ok (some contents)
      | .error .notFound => .ok none
      | .error fault => .error (.io fault) := by
  have mapped : (Retry.run fun call => asContents (reads call)).2 =
      asContents (Retry.run reads).2 :=
    congrArg Prod.snd (Retry.runFrom_map asContents_held reads 1 (Retry.maximumCalls - 1))
  rw [contentsAmid, mapped]
  rcases (Retry.run reads).2 with (_ | _) | _ <;> rfl

end Disk

namespace Retry

/-- A request is made up to the first call that ends otherwise than by the file being held, but ten
times at most, and has the outcome of its last call. Reading a file gives nothing exactly if its
last call does not find the file. -/
theorem repeats_while_held :
    (∀ {α : Type} (outcome : Nat → Except IoFault α), ∃ calls : Nat,
      run outcome = (calls, outcome calls) ∧
      (calls : ℕ∞) = min 10 (firstSettled outcome) ∧
      (∀ call, 1 ≤ call → call ≤ calls → outcome call ≠ .error .wouldBlock → call = calls) ∧
      ∀ {σ : Type} (operation : σ → Except IoFault α × σ) (state : σ),
        Gives operation state outcome →
          repeated operation state = (outcome calls, stateAfter operation state calls)) ∧
    ∀ reads : Nat → Except IoFault ByteArray,
      (Disk.contentsAmid reads = match (run reads).2 with
        | .ok contents => .ok (some contents)
        | .error .notFound => .ok none
        | .error fault => .error (.io fault)) ∧
      ∀ (disk : Disk) (path : Path), (∀ call, reads call = disk.contents path) →
        disk.contents? path = Disk.contentsAmid reads := by
  refine ⟨fun outcome => ?_, fun reads => ⟨Disk.contentsAmid_eq reads, fun disk path same => ?_⟩⟩
  · have stretch := stretch_run outcome
    refine ⟨(run outcome).1, Prod.ext rfl stretch.result, stretch.eq_min, ?_, ?_⟩
    · intro call after before settled
      rcases Nat.eq_or_lt_of_le before with last | earlier
      · exact last
      · exact absurd (stretch.held call after earlier) settled
    · intro _ operation state gives
      rw [repeated_eq gives, stretch.result]
  · rw [funext same, ← Disk.contents?_eq]

/-- A file that is held all the time stays held at the tenth call. -/
example : run (fun _ => (.error .wouldBlock : Except IoFault Unit)) = (10, .error .wouldBlock) := rfl

/-- An operation that gives the outcomes of a sequence and counts its calls. -/
def counting (outcome : Nat → Except IoFault α) (calls : Nat) : Except IoFault α × Nat :=
  (outcome (calls + 1), calls + 1)

theorem gives_counting (outcome : Nat → Except IoFault α) : Gives (counting outcome) 0 outcome := by
  have counted (calls : Nat) : stateAfter (counting outcome) 0 calls = calls := by
    induction calls with
    | zero => rfl
    | succ calls ih => rw [stateAfter_succ, ih, counting]
  intro call
  rw [counted, counting]

def goneAtThird (call : Nat) : Except IoFault ByteArray :=
  if call < 3 then .error .wouldBlock else .error .notFound

theorem repeats_while_held_gone :
    run goneAtThird = (3, .error .notFound) ∧ Disk.contentsAmid goneAtThird = .ok none ∧
      repeated (counting goneAtThird) 0 = (.error .notFound, 3) := by
  obtain ⟨repeats, reads⟩ := repeats_while_held
  obtain ⟨calls, ran, -, -, made⟩ := repeats goneAtThird
  have third : run goneAtThird = (3, .error .notFound) := rfl
  obtain rfl : calls = 3 := congrArg Prod.fst (ran.symm.trans third)
  refine ⟨third, ?_, made (counting goneAtThird) 0 (gives_counting goneAtThird)⟩
  rw [(reads goneAtThird).1, third]

end Retry
end Waymark
