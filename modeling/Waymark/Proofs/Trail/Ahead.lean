import Waymark.Proofs.Trail.Visited
/-!
# Which of two visits is ahead

Of two visits to different locations, the one that is recorded last is ahead of the other, as far as
the clock does not go back between them. Whether it is the current one depends on the other entries:
those with later times stay before it.
-/

namespace Waymark

theorem length_lt_of_getElem? {α : Type} {front rest : List α} {mark a : α} {place : Nat}
    (found : (front ++ mark :: rest)[place]? = some a) (notInFront : a ∉ front)
    (notMark : a ≠ mark) : front.length < place := by
  rcases Nat.lt_trichotomy place front.length with before | here | behind
  · rw [List.getElem?_append_left before] at found
    exact absurd (List.mem_of_getElem? found) notInFront
  · rw [here, List.getElem?_append_right (Nat.le_refl _)] at found
    simp only [Nat.sub_self, List.getElem?_cons_zero, Option.some.injEq] at found
    exact absurd found.symm notMark
  · exact behind

namespace Trail
open Entry

variable {trail : Trail} {first last : Location} {early late : Instant}

theorem Coherent.ahead_of_visit (coherent : trail.Coherent) {location : Location}
    (recordable : location.isRecordable = true) {icon : Option String} {now : Instant} {place : Nat}
    {entry : Entry} (found : (trail.visit location icon now).1.entries[place]? = some entry)
    (another : Key.same entry.key location.key = false) (notLater : ¬now < entry.visited) :
    ∃ (nearer : Nat) (other : Entry), nearer < place ∧
      (trail.visit location icon now).1.entries[nearer]? = some other ∧
      Key.same other.key location.key = true ∧ other.visited = now := by
  rw [coherent.visit_entries recordable] at found ⊢
  rw [List.getElem?_take, Option.ite_none_right_eq_some] at found
  obtain ⟨short, found⟩ := found
  have notInFront : entry ∉ trail.laterOthers location.key now := fun later =>
    notLater (of_decide_eq_true (List.mem_filter.mp later).2)
  have notMark : entry ≠ trail.recordedVisit location icon now := by
    rintro rfl
    exact absurd (trail.recordedVisit_key location icon now) (by simp [another])
  have nearer := length_lt_of_getElem? found notInFront notMark
  refine ⟨_, trail.recordedVisit location icon now, nearer, ?_,
    recordedVisit_key location icon now, recordedVisit_visited location icon now⟩
  rw [List.getElem?_take_of_lt (Nat.lt_trans nearer short), List.getElem?_append_right (Nat.le_refl _),
    Nat.sub_self, List.getElem?_cons_zero]

/-- Where two visits lead that follow each other: what lies ahead of the first, what is current, and
the list if no time in the trail was later than the first visit. -/
structure Leads (before between after : Trail) (first last : Location) (early late : Instant) :
    Prop where
  ahead : ∀ (place : Nat) (entry : Entry), after.entries[place]? = some entry →
    Key.same entry.key first.key = true →
      ∃ (nearer : Nat) (other : Entry), nearer < place ∧ after.entries[nearer]? = some other ∧
        Key.same other.key last.key = true ∧ other.visited = late
  current_iff : (∃ entry, after.current? = some entry ∧ Key.same entry.key last.key = true) ↔
    ∀ entry ∈ between.entries, Key.same entry.key last.key = false → ¬late < entry.visited
  newest : (∀ entry ∈ before.entries, ¬early < entry.visited) →
    ∃ newest next rest, after.entries = newest :: next :: rest ∧
      Key.same newest.key last.key = true ∧ newest.visited = late ∧
      Key.same next.key first.key = true ∧ next.visited = early

theorem not_same_last (differ : Key.same first.key last.key = false) {key : String}
    (same : Key.same key first.key = true) : Key.same key last.key = false := by
  rw [Key.same_congr same]
  exact differ

theorem Coherent.current?_visit_iff (coherent : trail.Coherent) {location : Location}
    (recordable : location.isRecordable = true) (icon : Option String) (now : Instant) :
    (∃ entry, (trail.visit location icon now).1.current? = some entry ∧
        Key.same entry.key location.key = true) ↔
      ∀ entry ∈ trail.entries, Key.same entry.key location.key = false → ¬now < entry.visited := by
  rw [coherent.visit_current? recordable]
  constructor
  · rintro ⟨entry, current, same⟩ other inside another later
    have listed : other ∈ trail.laterOthers location.key now := by
      simp [laterOthers, others, inside, another, later]
    cases ahead : trail.laterOthers location.key now with
    | nil => exact absurd (ahead ▸ listed) List.not_mem_nil
    | cons head rest =>
        rw [ahead] at current
        cases current
        have there : entry ∈ trail.laterOthers location.key now := by simp [ahead]
        have different := (List.mem_filter.mp (List.mem_filter.mp there).1).2
        simp [same] at different
  · intro latest
    have none : trail.laterOthers location.key now = [] := by
      refine List.filter_eq_nil_iff.mpr fun entry inside => ?_
      obtain ⟨there, another⟩ := List.mem_filter.mp inside
      simpa using latest entry there (by simpa using another)
    exact ⟨trail.recordedVisit location icon now, by rw [none]; rfl,
      trail.recordedVisit_key location icon now⟩

theorem Coherent.visited_of_same (coherent : trail.Coherent) {location : Location}
    (recordable : location.isRecordable = true) {icon : Option String} {now : Instant}
    {entry : Entry} (inside : entry ∈ (trail.visit location icon now).1.entries)
    (same : Key.same entry.key location.key = true) : entry.visited = now := by
  rcases coherent.mem_visit_entries recordable inside with other | rfl
  · have different := (List.mem_filter.mp other).2
    simp [same] at different
  · exact recordedVisit_visited location icon now

theorem Coherent.newest_of_visits (coherent : trail.Coherent) (ableFirst : first.isRecordable = true)
    (ableLast : last.isRecordable = true) (differ : Key.same first.key last.key = false)
    (forward : ¬late < early) (iconFirst iconLast : Option String)
    (latest : ∀ entry ∈ trail.entries, ¬early < entry.visited) :
    ∃ newest next rest,
      ((trail.visit first iconFirst early).1.visit last iconLast late).1.entries =
        newest :: next :: rest ∧
      Key.same newest.key last.key = true ∧ newest.visited = late ∧
      Key.same next.key first.key = true ∧ next.visited = early := by
  have still := coherent.visit first iconFirst early
  have notLater : ∀ entry ∈ (trail.visit first iconFirst early).1.entries, ¬late < entry.visited := by
    intro entry inside after
    rcases mem_visit inside with old | new
    · exact latest entry old (Instant.lt_of_not_lt_of_lt forward after)
    · exact forward (new ▸ after)
  have entries := coherent.visit_entries_of_latest ableFirst iconFirst latest
  obtain ⟨room, limit⟩ := Nat.exists_eq_add_of_le coherent.least_limit
  obtain ⟨space, bound⟩ := Nat.exists_eq_add_of_le still.least_limit
  have first_key := trail.recordedVisit_key first iconFirst early
  have first_stays : (!Key.same (trail.recordedVisit first iconFirst early).key last.key) = true := by
    rw [not_same_last differ first_key]
    rfl
  rw [limit, Nat.add_comm, List.take_succ_cons] at entries
  rw [still.visit_entries_of_latest ableLast iconLast notLater, others, entries, bound, Nat.add_comm,
    List.filter_cons, if_pos first_stays, List.take_succ_cons, List.take_succ_cons]
  exact ⟨_, _, _, rfl, recordedVisit_key last iconLast late, recordedVisit_visited _ _ _, first_key,
    recordedVisit_visited _ _ _⟩

theorem visit_leads (coherent : trail.Coherent) (ableFirst : first.isRecordable = true)
    (ableLast : last.isRecordable = true) (differ : Key.same first.key last.key = false)
    (forward : ¬late < early) (iconFirst iconLast : Option String) :
    let between := (trail.visit first iconFirst early).1
    Leads trail between (between.visit last iconLast late).1 first last early late where
  ahead place entry found same := by
    have still := coherent.visit first iconFirst early
    have another := not_same_last differ same
    refine still.ahead_of_visit ableLast found another ?_
    rcases still.mem_visit_entries ableLast (List.mem_of_getElem? found) with old | rfl
    · rwa [coherent.visited_of_same ableFirst (List.mem_filter.mp old).1 same]
    · have also := (trail.visit first iconFirst early).1.recordedVisit_key last iconLast late
      exact absurd also (by simp [another])
  current_iff := (coherent.visit first iconFirst early).current?_visit_iff ableLast iconLast late
  newest := coherent.newest_of_visits ableFirst ableLast differ forward iconFirst iconLast

end Trail
end Waymark
