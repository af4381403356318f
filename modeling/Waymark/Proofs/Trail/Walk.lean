import Waymark.Proofs.Trail.Coherent
/-!
# Walks along a trail

The cursor walks over a list that stays as it is. A move adds its step to the place of the cursor or
takes it away, and stops at the ends of the list; `Coherent.move_eq` says all that a move does. So
moves in one direction add up, and a move is undone by one of the length that was walked.
-/

namespace Waymark.Trail

/-- A move back leads to older entries, a move forward to newer ones. -/
inductive Move where
  | back (step : Nat)
  | forward (step : Nat)

def Move.offset : Move → Int
  | .back step => step
  | .forward step => -step

def nearest (length : Nat) (place : Int) : Nat :=
  (max 0 (min place (length - 1))).toNat

def target (length : Nat) (cursor : Option Nat) (move : Move) : Option Nat :=
  cursor.map fun place : Nat => nearest length (place + move.offset)

def move (trail : Trail) : Move → Trail × Option Entry
  | .back step => trail.back step
  | .forward step => trail.forward step

def walk (trail : Trail) (moves : List Move) : Trail :=
  moves.foldl (fun trail move => (trail.move move).1) trail

section
variable {length place : Nat}

theorem nearest_back (inside : place < length) (step : Nat) :
    nearest length (place + (Move.back step).offset) = min (place + step) (length - 1) := by
  simp only [nearest, Move.offset]
  omega

theorem nearest_forward (inside : place < length) (step : Nat) :
    nearest length (place + (Move.forward step).offset) = place - step := by
  simp only [nearest, Move.offset]
  omega

theorem nearest_self (inside : place < length) : nearest length place = place := by
  unfold nearest
  omega

theorem nearest_back_back (inside : place < length) {greatest : Nat} (most : length ≤ greatest)
    (a b : Nat) :
    nearest length (nearest length (place + (Move.back a).offset) + (Move.back b).offset) =
      nearest length (place + (Move.back (min (a + b) greatest)).offset) := by
  simp only [nearest, Move.offset]
  omega

theorem nearest_forward_forward (inside : place < length) {greatest : Nat}
    (most : length ≤ greatest) (a b : Nat) :
    nearest length (nearest length (place + (Move.forward a).offset) + (Move.forward b).offset) =
      nearest length (place + (Move.forward (min (a + b) greatest)).offset) := by
  simp only [nearest, Move.offset]
  omega

end

variable {trail : Trail}

theorem moveTo_eq {place : Nat} (here : trail.cursor = some place) (target : Nat) :
    trail.moveTo place target =
      ({ trail with cursor := some target },
        if some target = trail.cursor then none else trail.entries[target]?) := by
  unfold moveTo
  rw [here]
  by_cases same : target = place
  · rw [if_pos same, if_pos (congrArg some same), same, ← here]
  · rw [if_neg same, if_neg fun equal => same (Option.some.inj equal)]

theorem Coherent.move_eq (coherent : trail.Coherent) (move : Move) :
    let after : Trail := { trail with cursor := target trail.entries.length trail.cursor move }
    trail.move move = (after, if after.cursor = trail.cursor then none else after.current?) := by
  intro after
  cases here : trail.cursor with
  | none =>
      have still : after = trail := by
        simp only [after, here, target, Option.map_none]
        rw [← here]
      cases move <;> simp [Trail.move, Trail.back, Trail.forward, here, still]
  | some place =>
      have inside := coherent.cursor_lt place here
      have leads : after =
          { trail with cursor := some (nearest trail.entries.length (place + move.offset)) } := by
        simp only [after, here, target, Option.map_some]
      rw [leads]
      cases move with
      | back step =>
          rw [nearest_back inside, Trail.move, Trail.back, here]
          simp only [moveTo_eq here, here]
          rfl
      | forward step =>
          rw [nearest_forward inside, Trail.move, Trail.forward, here]
          simp only [moveTo_eq here, here]
          rfl

theorem Coherent.move (coherent : trail.Coherent) (move : Move) :
    (trail.move move).1.Coherent := by
  cases move with
  | back step => exact coherent.back step
  | forward step => exact coherent.forward step

theorem Coherent.move_result (coherent : trail.Coherent) (move : Move) :
    ((trail.move move).2 = none ↔ (trail.move move).1.cursor = trail.cursor) ∧
      ∀ entry, (trail.move move).2 = some entry → (trail.move move).1.current? = some entry := by
  have still := coherent.move move
  rw [coherent.move_eq] at still ⊢
  dsimp only at still ⊢
  split
  · rename_i same
    exact ⟨iff_of_true rfl same, nofun⟩
  · rename_i moved
    refine ⟨iff_of_false (fun none => moved ?_) moved, fun _ given => given⟩
    cases leads : target trail.entries.length trail.cursor move with
    | none => exact ((Option.map_eq_none_iff).mp leads).symm
    | some place =>
        have inside : place < trail.entries.length := still.cursor_lt place leads
        rw [current?, leads] at none
        exact absurd (List.getElem?_eq_none_iff.mp none) (Nat.not_le.mpr inside)

theorem Coherent.move_move (coherent : trail.Coherent) (first second : Move) :
    ((trail.move first).1.move second).1 =
      { trail with
        cursor := target trail.entries.length
          (target trail.entries.length trail.cursor first) second } := by
  rw [(coherent.move first).move_eq, coherent.move_eq]

theorem Coherent.move_move_eq (coherent : trail.Coherent) (first second both : Move)
    (same : ∀ place < trail.entries.length,
      nearest trail.entries.length
          (nearest trail.entries.length (place + first.offset) + second.offset) =
        nearest trail.entries.length (place + both.offset)) :
    ((trail.move first).1.move second).1 = (trail.move both).1 := by
  rw [coherent.move_move, coherent.move_eq]
  dsimp only
  congr 1
  cases here : trail.cursor with
  | none => rfl
  | some place => exact congrArg some (same place (coherent.cursor_lt place here))

theorem Coherent.undo_move (coherent : trail.Coherent) (move undo : Move) {place other : Nat}
    (here : trail.cursor = some place) (there : (trail.move move).1.cursor = some other)
    (back : (other : Int) + undo.offset = place) : ((trail.move move).1.move undo).1 = trail := by
  rw [coherent.move_eq] at there
  rw [coherent.move_move, show target _ _ move = some other from there, target, Option.map_some,
    back, nearest_self (coherent.cursor_lt place here), ← here]

theorem Coherent.back_one (coherent : trail.Coherent) : (trail.back 1).2 = trail.previous? := by
  cases here : trail.cursor with
  | none => simp [Trail.back, previous?, here]
  | some place =>
      have inside := coherent.cursor_lt place here
      rw [Trail.back, previous?, here, Option.bind_some]
      dsimp only
      rw [moveTo_eq here, here]
      by_cases last : place + 1 < trail.entries.length
      · rw [Nat.min_eq_left (by omega), if_neg (by simp)]
      · rw [Nat.min_eq_right (by omega), if_pos (by congr 1; omega), eq_comm]
        exact List.getElem?_eq_none (Nat.not_lt.mp last)

theorem forward_one (trail : Trail) : (trail.forward 1).2 = trail.next? := by
  cases here : trail.cursor with
  | none => simp [Trail.forward, next?, here]
  | some place =>
      rw [Trail.forward, next?, here, Option.bind_some]
      dsimp only
      rw [moveTo_eq here, here]
      by_cases first : place = 0
      · simp [first]
      · rw [if_neg (by simp; omega), if_neg first]

theorem Coherent.walk (coherent : trail.Coherent) (moves : List Move) :
    (trail.walk moves).Coherent := by
  induction moves generalizing trail with
  | nil => exact coherent
  | cons move rest ih => exact ih (coherent.move move)

theorem Coherent.walk_eq (coherent : trail.Coherent) (moves : List Move) :
    trail.walk moves =
      { trail with cursor := moves.foldl (target trail.entries.length) trail.cursor } := by
  induction moves generalizing trail with
  | nil => rfl
  | cons move rest ih =>
      have after := ih (coherent.move move)
      rw [coherent.move_eq] at after
      exact (congrArg (Trail.walk · rest) (congrArg Prod.fst (coherent.move_eq move))).trans after

/-- Moves walk over a list that stays as it is, each by its step and no further than to the ends.
Whatever moves were made before: moves in one direction add up, up to any step that is as great as
the list is long; a move is undone by the length that was walked; and to look at the neighbours of
the cursor is to move there by one. -/
theorem walk_clamped (limit : Nat) (actions : List Action) (moves : List Move) :
    let start := (empty limit).run actions
    let trail := start.walk moves
    let length := start.entries.length
    trail = { start with cursor := moves.foldl (target length) start.cursor } ∧
      (∀ move : Move,
        (trail.move move).1 = { trail with cursor := target length trail.cursor move } ∧
        ((trail.move move).2 = none ↔ (trail.move move).1.cursor = trail.cursor) ∧
        ∀ entry, (trail.move move).2 = some entry → (trail.move move).1.current? = some entry) ∧
      (∀ a b greatest : Nat, length ≤ greatest →
        ((trail.back a).1.back b).1 = (trail.back (min (a + b) greatest)).1 ∧
        ((trail.forward a).1.forward b).1 = (trail.forward (min (a + b) greatest)).1) ∧
      (∀ place step n : Nat,
        (trail.cursor = some place → (trail.back step).1.cursor = some (place + n) →
          ((trail.back step).1.forward n).1 = trail) ∧
        (trail.cursor = some (place + n) → (trail.forward step).1.cursor = some place →
          ((trail.forward step).1.back n).1 = trail)) ∧
      (trail.back 1).2 = trail.previous? ∧ (trail.forward 1).2 = trail.next? := by
  intro start trail length
  have startCoherent : start.Coherent := coherent_run (coherent_empty limit) actions
  have coherent : trail.Coherent := startCoherent.walk moves
  have walked : trail = { start with cursor := moves.foldl (target length) start.cursor } :=
    startCoherent.walk_eq moves
  have same : trail.entries.length = length := by rw [walked]
  refine ⟨walked, fun move => ⟨?_, coherent.move_result move⟩, fun a b greatest most => ⟨?_, ?_⟩,
    fun place step n => ⟨fun here there => ?_, fun here there => ?_⟩, coherent.back_one,
    trail.forward_one⟩
  · rw [coherent.move_eq, same]
  · exact coherent.move_move_eq (.back a) (.back b) (.back _)
      fun place inside => nearest_back_back inside (same ▸ most) a b
  · exact coherent.move_move_eq (.forward a) (.forward b) (.forward _)
      fun place inside => nearest_forward_forward inside (same ▸ most) a b
  · exact coherent.undo_move (.back step) (.forward n) here there
      (by simp only [Move.offset]; omega)
  · exact coherent.undo_move (.forward step) (.back n) here there
      (by simp only [Move.offset]; omega)

end Waymark.Trail
