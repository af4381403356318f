import Waymark.Proofs.Trail.Entries
/-!
# Coherent trails

What holds of a trail after any operations: its cursor stands on an entry unless there is none, no
two entries share a key or a sequence, and the entries are in order. `coherent_act` is the step and
`coherent_run` the run.
-/

namespace Waymark.Trail
open Entry

structure Coherent (trail : Trail) : Prop where
  cursor_none : trail.cursor = none ↔ trail.entries = []
  cursor_lt : ∀ place, trail.cursor = some place → place < trail.entries.length
  keysDiffer : KeysDiffer trail.entries
  toldApart : ToldApart trail.entries
  sequence_lt : ∀ entry ∈ trail.entries, entry.sequence < trail.nextSequence
  sorted : trail.entries.Pairwise Later
  least_limit : 10 ≤ trail.limit
  limit_greatest : trail.limit ≤ 1000

inductive Action where
  | visit (location : Location) (icon : Option String) (now : Instant)
  | back (step : Nat)
  | forward (step : Nat)
  | remove (entry : Entry)
  | removeKey (key : String)
  | removeUnder (root : String)
  | prune (isThere : String → Bool)
  | clear
  | replace (entries : List Entry)
  | setLimit (limit : Nat)

def act (trail : Trail) : Action → Trail
  | .visit location icon now => (trail.visit location icon now).1
  | .back step => (trail.back step).1
  | .forward step => (trail.forward step).1
  | .remove entry => (trail.removeKey entry.key).1
  | .removeKey key => (trail.removeKey key).1
  | .removeUnder root => (trail.removeUnder root).1
  | .prune isThere => (trail.prune isThere).1
  | .clear => trail.clear.1
  | .replace entries => trail.replace entries
  | .setLimit limit => trail.setLimit limit

def run (trail : Trail) (actions : List Action) : Trail :=
  actions.foldl act trail

theorem coherent_empty (limit : Nat) : (empty limit).Coherent where
  cursor_none := by simp [empty]
  cursor_lt := by simp [empty]
  keysDiffer := .nil
  toldApart := .nil
  sequence_lt := by simp [empty]
  sorted := .nil
  least_limit := by simp only [empty, clampLimit]; omega
  limit_greatest := by simp only [empty, clampLimit]; omega

variable {trail : Trail}

theorem Coherent.setLimit (coherent : trail.Coherent) (limit : Nat) :
    (trail.setLimit limit).Coherent :=
  { coherent with
    least_limit := by simp only [Trail.setLimit, clampLimit]; omega
    limit_greatest := by simp only [Trail.setLimit, clampLimit]; omega }

theorem Coherent.clear (coherent : trail.Coherent) : trail.clear.1.Coherent where
  cursor_none := by simp [Trail.clear]
  cursor_lt := by simp [Trail.clear]
  keysDiffer := .nil
  toldApart := .nil
  sequence_lt := by simp [Trail.clear]
  sorted := .nil
  least_limit := coherent.least_limit
  limit_greatest := coherent.limit_greatest

theorem Coherent.withCursor (coherent : trail.Coherent) {place : Nat}
    (inside : place < trail.entries.length) :
    { trail with cursor := some place }.Coherent :=
  { coherent with
    cursor_none := by simpa using List.ne_nil_of_length_pos (Nat.zero_lt_of_lt inside)
    cursor_lt := by
      rintro other same
      cases same
      exact inside }

theorem Coherent.moveTo (coherent : trail.Coherent) (place : Nat) {target : Nat}
    (inside : target < trail.entries.length) : (trail.moveTo place target).1.Coherent := by
  unfold Trail.moveTo
  split
  · exact coherent
  · exact coherent.withCursor inside

theorem Coherent.back (coherent : trail.Coherent) (step : Nat) :
    (trail.back step).1.Coherent := by
  unfold Trail.back
  split
  · exact coherent
  · rename_i place here
    have := coherent.cursor_lt place here
    exact coherent.moveTo place (by omega)

theorem Coherent.forward (coherent : trail.Coherent) (step : Nat) :
    (trail.forward step).1.Coherent := by
  unfold Trail.forward
  split
  · exact coherent
  · rename_i place here
    have := coherent.cursor_lt place here
    exact coherent.moveTo place (by omega)

theorem clampCursor_none (cursor : Option Nat) (length : Nat) :
    clampCursor cursor length = none ↔ length = 0 := by
  unfold clampCursor
  split <;> simp [*]

theorem clampCursor_lt {cursor : Option Nat} {length place : Nat}
    (clamped : clampCursor cursor length = some place) : place < length := by
  unfold clampCursor at clamped
  split at clamped
  · cases clamped
  · cases clamped
    omega

theorem Coherent.withEntries (coherent : trail.Coherent) {kept : List Entry}
    (sublist : kept.Sublist trail.entries) : (trail.withEntries kept).1.Coherent := by
  unfold Trail.withEntries
  split
  · exact coherent
  · exact {
      cursor_none := by simp [clampCursor_none]
      cursor_lt := fun place => clampCursor_lt
      keysDiffer := coherent.keysDiffer.sublist sublist
      toldApart := coherent.toldApart.sublist sublist
      sequence_lt := fun entry member => coherent.sequence_lt entry (sublist.subset member)
      sorted := coherent.sorted.sublist sublist
      least_limit := coherent.least_limit
      limit_greatest := coherent.limit_greatest }

theorem withEntries_sublist {kept : List Entry} (sublist : kept.Sublist trail.entries) :
    (trail.withEntries kept).1.entries.Sublist trail.entries := by
  unfold Trail.withEntries
  split
  · exact .refl _
  · exact sublist

theorem withEntries_unchanged {kept : List Entry} (unchanged : (trail.withEntries kept).2 = false) :
    (trail.withEntries kept).1 = trail := by
  unfold Trail.withEntries at unchanged ⊢
  split
  · rfl
  · rw [if_neg ‹_›] at unchanged
    cases unchanged

theorem Coherent.removeKey (coherent : trail.Coherent) (key : String) :
    (trail.removeKey key).1.Coherent :=
  coherent.withEntries List.eraseP_sublist

theorem Coherent.replace (coherent : trail.Coherent) (entries : List Entry) :
    (trail.replace entries).Coherent := by
  have sublist := distinct_sublist (Entry.sort (numbered entries))
  exact {
    cursor_none := by
      simp only [Trail.replace]
      split <;> simp_all
    cursor_lt := by
      intro place here
      simp only [Trail.replace] at here ⊢
      split at here
      · cases here
      · rename_i nonempty
        cases here
        exact List.length_pos_iff.mpr (by simpa using nonempty)
    keysDiffer := distinct_keysDiffer _
    toldApart := (sort_toldApart (numbered_toldApart entries)).sublist sublist
    sequence_lt := fun entry member =>
      Nat.lt_succ_of_le (sequence_of_mem_numbered (mem_sort.mp (sublist.subset member)))
    sorted := (sort_later (numbered_toldApart entries)).sublist sublist
    least_limit := coherent.least_limit
    limit_greatest := coherent.limit_greatest }

@[simp] theorem moveTo_entries (trail : Trail) (place target : Nat) :
    (trail.moveTo place target).1.entries = trail.entries := by
  unfold moveTo
  split <;> rfl

@[simp] theorem back_entries (trail : Trail) (step : Nat) :
    (trail.back step).1.entries = trail.entries := by
  unfold back
  split <;> simp

@[simp] theorem forward_entries (trail : Trail) (step : Nat) :
    (trail.forward step).1.entries = trail.entries := by
  unfold forward
  split <;> simp

def visitedEntries (trail : Trail) (location : Location) (icon : Option String) (now : Instant) :
    List Entry :=
  upsert location.key (·.visit location.name icon now trail.nextSequence)
    (.ofVisit location icon now trail.nextSequence) trail.entries

theorem visit_of_recordable {location : Location} (recordable : location.isRecordable = true)
    (icon : Option String) (now : Instant) :
    trail.visit location icon now =
      ({ trail with
          entries := (Entry.sort (trail.visitedEntries location icon now)).take trail.limit
          cursor := some 0
          nextSequence := trail.nextSequence + 1 }, true) := by
  rw [Trail.visit, if_pos recordable]
  rfl

theorem visit_of_not_recordable {location : Location} (transient : location.isRecordable = false)
    (icon : Option String) (now : Instant) : trail.visit location icon now = (trail, false) := by
  rw [Trail.visit, transient]
  rfl

theorem Coherent.visitedEntries_toldApart (coherent : trail.Coherent) (location : Location)
    (icon : Option String) (now : Instant) :
    ToldApart (trail.visitedEntries location icon now) := by
  unfold visitedEntries
  exact upsert_toldApart (fun _ => by rfl) (by rfl) coherent.toldApart coherent.sequence_lt

theorem Coherent.visitedEntries_keysDiffer (coherent : trail.Coherent) (location : Location)
    (icon : Option String) (now : Instant) :
    KeysDiffer (trail.visitedEntries location icon now) := by
  unfold visitedEntries
  exact upsert_keysDiffer (fun _ => by rfl) (by rfl) coherent.keysDiffer

theorem Coherent.visitedEntries_sequence_lt (coherent : trail.Coherent) {location : Location}
    {icon : Option String} {now : Instant} {entry : Entry}
    (member : entry ∈ trail.visitedEntries location icon now) :
    entry.sequence < trail.nextSequence + 1 := by
  unfold visitedEntries at member
  have cases := mem_upsert (·.sequence = trail.nextSequence) (fun _ => by rfl) (by rfl) member
  rcases cases with old | new
  · exact Nat.lt_succ_of_lt (coherent.sequence_lt entry old)
  · exact new ▸ Nat.lt_succ_self _

theorem visit_unchanged {location : Location} {icon : Option String} {now : Instant}
    (unchanged : (trail.visit location icon now).2 = false) :
    (trail.visit location icon now).1 = trail := by
  cases recordable : location.isRecordable with
  | false => rw [visit_of_not_recordable recordable]
  | true =>
      rw [visit_of_recordable recordable] at unchanged
      cases unchanged

theorem mem_visit {location : Location} {icon : Option String} {now : Instant} {entry : Entry}
    (member : entry ∈ (trail.visit location icon now).1.entries) :
    entry ∈ trail.entries ∨ entry.visited = now := by
  cases recordable : location.isRecordable with
  | false =>
      rw [visit_of_not_recordable recordable] at member
      exact .inl member
  | true =>
      rw [visit_of_recordable recordable] at member
      have visited := mem_sort.mp (List.mem_of_mem_take member)
      exact mem_upsert (·.visited = now) (fun _ => by rfl) (by rfl) visited

theorem Coherent.visit (coherent : trail.Coherent) (location : Location) (icon : Option String)
    (now : Instant) : (trail.visit location icon now).1.Coherent := by
  cases recordable : location.isRecordable with
  | false =>
      rw [visit_of_not_recordable recordable]
      exact coherent
  | true =>
      rw [visit_of_recordable recordable]
      have sublist := List.take_sublist trail.limit (Entry.sort (trail.visitedEntries location icon now))
      have apart := coherent.visitedEntries_toldApart location icon now
      -- The limit is not zero, so the cut leaves the latest entry for the cursor.
      have nonempty : 0 < ((Entry.sort (trail.visitedEntries location icon now)).take
          trail.limit).length := by
        have some : 0 < (trail.visitedEntries location icon now).length :=
          List.length_pos_iff.mpr (upsert_ne_nil trail.entries)
        have least := coherent.least_limit
        rw [List.length_take, (sort_perm _).length_eq]
        exact Nat.lt_min.mpr ⟨by omega, some⟩
      exact {
        cursor_none := by simpa using List.ne_nil_of_length_pos nonempty
        cursor_lt := by
          rintro place here
          cases here
          exact nonempty
        keysDiffer := (sort_keysDiffer (coherent.visitedEntries_keysDiffer location icon now)).sublist
          sublist
        toldApart := (sort_toldApart apart).sublist sublist
        sequence_lt := fun entry member =>
          coherent.visitedEntries_sequence_lt (mem_sort.mp (sublist.subset member))
        sorted := (sort_later apart).sublist sublist
        least_limit := coherent.least_limit
        limit_greatest := coherent.limit_greatest }

theorem length_visit_le {location : Location} {icon : Option String} {now : Instant}
    (recorded : (trail.visit location icon now).2 = true) :
    (trail.visit location icon now).1.entries.length ≤
      (trail.visit location icon now).1.limit := by
  cases recordable : location.isRecordable with
  | false =>
      rw [visit_of_not_recordable recordable] at recorded
      cases recorded
  | true =>
      rw [visit_of_recordable recordable]
      exact List.length_take_le _ _

theorem coherent_act (coherent : trail.Coherent) (action : Action) :
    (trail.act action).Coherent := by
  cases action with
  | visit location icon now => exact coherent.visit location icon now
  | back step => exact coherent.back step
  | forward step => exact coherent.forward step
  | remove entry => exact coherent.removeKey entry.key
  | removeKey key => exact coherent.removeKey key
  | removeUnder root => exact coherent.withEntries List.filter_sublist
  | prune isThere => exact coherent.withEntries List.filter_sublist
  | clear => exact coherent.clear
  | replace entries => exact coherent.replace entries
  | setLimit limit => exact coherent.setLimit limit

theorem coherent_run (coherent : trail.Coherent) (actions : List Action) :
    (trail.run actions).Coherent := by
  induction actions generalizing trail with
  | nil => exact coherent
  | cons action rest ih => exact ih (coherent_act coherent action)

def Action.given : Action → Nat
  | .visit .. => 1
  | .replace entries => entries.length
  | _ => 0

def given : List Action → Nat
  | [] => 0
  | action :: actions => action.given + given actions

@[simp] theorem moveTo_nextSequence (trail : Trail) (place target : Nat) :
    (trail.moveTo place target).1.nextSequence = trail.nextSequence := by
  unfold moveTo
  split <;> rfl

@[simp] theorem back_nextSequence (trail : Trail) (step : Nat) :
    (trail.back step).1.nextSequence = trail.nextSequence := by
  unfold back
  split <;> simp

@[simp] theorem forward_nextSequence (trail : Trail) (step : Nat) :
    (trail.forward step).1.nextSequence = trail.nextSequence := by
  unfold forward
  split <;> simp

@[simp] theorem withEntries_nextSequence (trail : Trail) (entries : List Entry) :
    (trail.withEntries entries).1.nextSequence = trail.nextSequence := by
  unfold withEntries
  split <;> rfl

theorem nextSequence_act (positive : 1 ≤ trail.nextSequence) (action : Action) :
    1 ≤ (trail.act action).nextSequence ∧
      (trail.act action).nextSequence ≤ trail.nextSequence + action.given := by
  cases action with
  | visit location icon now =>
      cases recordable : location.isRecordable with
      | false =>
          rw [act, visit_of_not_recordable recordable]
          exact ⟨positive, Nat.le_add_right _ _⟩
      | true =>
          rw [act, visit_of_recordable recordable]
          exact ⟨Nat.succ_pos _, Nat.le_refl _⟩
  | replace entries =>
      simp only [act, Trail.replace, Action.given]
      omega
  | _ => simpa [act, removeKey, removeUnder, prune, Trail.clear, Trail.setLimit, Action.given] using positive

theorem nextSequence_run_le (positive : 1 ≤ trail.nextSequence) (actions : List Action) :
    (trail.run actions).nextSequence ≤ trail.nextSequence + given actions := by
  induction actions generalizing trail with
  | nil => exact Nat.le_refl _
  | cons action rest ih =>
      obtain ⟨still, step⟩ := nextSequence_act positive action
      have later := ih still
      simp only [run, List.foldl_cons, given] at later ⊢
      omega

/-- Every trail that operations lead to is coherent, a visit leaves it within its limit, no place
that an operation looks at lies behind the end, and sequences count no further than the visits and
the entries taken over. -/
theorem reachable_trail (limit : Nat) (actions : List Action) :
    let trail := (empty limit).run actions
    trail.Coherent ∧
      (∀ location icon now, (trail.visit location icon now).2 = true →
        (trail.visit location icon now).1.entries.length ≤
          (trail.visit location icon now).1.limit) ∧
      (∀ place step, trail.cursor = some place →
        1 ≤ trail.entries.length ∧
          min (place + step) (trail.entries.length - 1) < trail.entries.length) ∧
      (∀ key place, trail.entries.findIdx? (fun entry => Key.same entry.key key) = some place →
        place < trail.entries.length ∧ trail.find? key = trail.entries[place]?) ∧
      trail.nextSequence ≤ 1 + given actions := by
  have coherent := coherent_run (coherent_empty limit) actions
  refine ⟨coherent, fun location icon now recorded => length_visit_le recorded, ?_, ?_,
    nextSequence_run_le (Nat.le_refl 1) actions⟩
  · intro place step here
    have := coherent.cursor_lt place here
    omega
  · intro key place found
    obtain ⟨inside, same, before⟩ := List.findIdx?_eq_some_iff_getElem.mp found
    refine ⟨inside, ?_⟩
    rw [find?, List.getElem?_eq_getElem inside]
    exact List.find?_eq_some_iff_getElem.mpr ⟨same, place, inside, rfl, fun other below => by
      simpa using before other below⟩

end Waymark.Trail
