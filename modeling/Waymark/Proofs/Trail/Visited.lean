import Waymark.Proofs.Key.Distinct
import Waymark.Proofs.Trail.Coherent
/-!
# Where a visit leads

A visit puts its entry behind the entries of other locations with a later time and before all the
rest, and sets the cursor to the first place. With a clock that stands behind what the trail holds,
the user does not come to the location that was visited, and the entry may even be cut off.
-/

namespace Waymark

namespace Trail
open Entry

theorem upsert_perm {key : String} {change : Entry → Entry} {new : Entry} {entries : List Entry}
    (differ : KeysDiffer entries) :
    (upsert key change new entries).Perm
      (((entries.find? fun entry => Key.same entry.key key).map change).getD new ::
        entries.filter fun entry => !Key.same entry.key key) := by
  induction entries with
  | nil => exact .refl _
  | cons first rest ih =>
      obtain ⟨apart, others⟩ := List.pairwise_cons.mp differ
      cases same : Key.same first.key key with
      | true => simp [upsert, same, Key.filter_of_same Entry.key apart same]
      | false =>
          have found := (ih others).cons first
          simpa [upsert, same] using found.trans (.swap _ _ _)

def others (trail : Trail) (key : String) : List Entry :=
  trail.entries.filter fun entry => !Key.same entry.key key

def laterOthers (trail : Trail) (key : String) (now : Instant) : List Entry :=
  (trail.others key).filter fun entry => now < entry.visited

def earlierOthers (trail : Trail) (key : String) (now : Instant) : List Entry :=
  (trail.others key).filter fun entry => !decide (now < entry.visited)

def recordedVisit (trail : Trail) (location : Location) (icon : Option String) (now : Instant) :
    Entry :=
  ((trail.find? location.key).map (·.visit location.name icon now trail.nextSequence)).getD
    (.ofVisit location icon now trail.nextSequence)

variable {trail : Trail}

theorem recordedVisit_key (location : Location) (icon : Option String) (now : Instant) :
    Key.same (trail.recordedVisit location icon now).key location.key = true := by
  unfold recordedVisit
  cases found : trail.find? location.key with
  | none => exact (Text.sameButCase_iff _ _).mpr rfl
  | some entry =>
      have known : Key.same entry.key location.key = true := by simpa using List.find?_some found
      exact known

@[simp] theorem recordedVisit_visited (location : Location) (icon : Option String) (now : Instant) :
    (trail.recordedVisit location icon now).visited = now := by
  unfold recordedVisit
  cases trail.find? location.key <;> rfl

@[simp] theorem recordedVisit_sequence (location : Location) (icon : Option String)
    (now : Instant) : (trail.recordedVisit location icon now).sequence = trail.nextSequence := by
  unfold recordedVisit
  cases trail.find? location.key <;> rfl

theorem visitedEntries_perm (coherent : trail.Coherent) (location : Location)
    (icon : Option String) (now : Instant) :
    (trail.visitedEntries location icon now).Perm
      (trail.recordedVisit location icon now :: trail.others location.key) :=
  upsert_perm coherent.keysDiffer

theorem laterOthers_recordedVisit {location : Location} (icon : Option String) {now : Instant}
    {entry : Entry} (inside : entry ∈ trail.laterOthers location.key now) :
    entry.Later (trail.recordedVisit location icon now) :=
  .inl (by simpa using (List.mem_filter.mp inside).2)

theorem Coherent.recordedVisit_earlierOthers (coherent : trail.Coherent) {location : Location}
    {icon : Option String} {now : Instant} {entry : Entry}
    (inside : entry ∈ trail.earlierOthers location.key now) :
    (trail.recordedVisit location icon now).Later entry := by
  obtain ⟨other, notLater⟩ := List.mem_filter.mp inside
  have notLater : ¬now < entry.visited := by simpa using notLater
  have old := coherent.sequence_lt entry (List.mem_filter.mp other).1
  refine Later.of_not_later (fun later => ?_) (by simpa using Nat.ne_of_gt old)
  rcases later with after | ⟨-, higher⟩
  · exact notLater (by simpa using after)
  · rw [recordedVisit_sequence] at higher
    exact Nat.lt_asymm old higher

theorem Coherent.pairwise_visit (coherent : trail.Coherent) (location : Location)
    (icon : Option String) (now : Instant) :
    (trail.laterOthers location.key now ++ trail.recordedVisit location icon now ::
      trail.earlierOthers location.key now).Pairwise Later := by
  have others : (trail.others location.key).Pairwise Later := coherent.sorted.filter _
  have before : ∀ entry ∈ trail.earlierOthers location.key now,
      (trail.recordedVisit location icon now).Later entry :=
    fun entry inside => coherent.recordedVisit_earlierOthers inside
  refine List.pairwise_append.mpr ⟨others.filter _, List.pairwise_cons.mpr
    ⟨before, others.filter _⟩, fun first inside second there => ?_⟩
  have ahead := laterOthers_recordedVisit icon inside
  rcases List.mem_cons.mp there with here | behind
  · exact here ▸ ahead
  · exact ahead.trans (before second behind)

/-- Sorting puts the visit behind the later entries of other locations and before the rest. -/
theorem Coherent.sort_visitedEntries (coherent : trail.Coherent) (location : Location)
    (icon : Option String) (now : Instant) :
    Entry.sort (trail.visitedEntries location icon now) =
      trail.laterOthers location.key now ++
        trail.recordedVisit location icon now :: trail.earlierOthers location.key now := by
  have apart := coherent.visitedEntries_toldApart location icon now
  have split := List.filter_append_perm (fun entry => decide (now < entry.visited))
    (trail.others location.key)
  have same : (Entry.sort (trail.visitedEntries location icon now)).Perm
      (trail.laterOthers location.key now ++
        trail.recordedVisit location icon now :: trail.earlierOthers location.key now) :=
    (sort_perm _).trans <| (visitedEntries_perm coherent location icon now).trans <|
      (split.symm.cons _).trans List.perm_middle.symm
  exact same.eq_of_pairwise (fun a b _ _ ab ba => absurd ba ab.asymm) (sort_later apart)
    (coherent.pairwise_visit location icon now)

theorem Coherent.visit_entries (coherent : trail.Coherent) {location : Location}
    (recordable : location.isRecordable = true) (icon : Option String) (now : Instant) :
    (trail.visit location icon now).1.entries =
      (trail.laterOthers location.key now ++ trail.recordedVisit location icon now ::
        trail.earlierOthers location.key now).take trail.limit := by
  rw [visit_of_recordable recordable, coherent.sort_visitedEntries]

theorem Coherent.mem_visit_entries (coherent : trail.Coherent) {location : Location}
    (recordable : location.isRecordable = true) {icon : Option String} {now : Instant}
    {entry : Entry} (inside : entry ∈ (trail.visit location icon now).1.entries) :
    entry ∈ trail.others location.key ∨ entry = trail.recordedVisit location icon now := by
  rw [coherent.visit_entries recordable] at inside
  rcases List.mem_append.mp (List.mem_of_mem_take inside) with later | rest
  · exact .inl (List.mem_filter.mp later).1
  · rcases List.mem_cons.mp rest with here | earlier
    · exact .inr here
    · exact .inl (List.mem_filter.mp earlier).1

theorem Coherent.visit_entries_of_latest (coherent : trail.Coherent) {location : Location}
    (recordable : location.isRecordable = true) (icon : Option String) {now : Instant}
    (latest : ∀ entry ∈ trail.entries, ¬now < entry.visited) :
    (trail.visit location icon now).1.entries =
      (trail.recordedVisit location icon now :: trail.others location.key).take trail.limit := by
  have notLater : ∀ entry ∈ trail.others location.key, ¬now < entry.visited :=
    fun entry inside => latest entry (List.mem_filter.mp inside).1
  have none : trail.laterOthers location.key now = [] :=
    List.filter_eq_nil_iff.mpr fun entry inside => by simpa using notLater entry inside
  have all : trail.earlierOthers location.key now = trail.others location.key :=
    List.filter_eq_self.mpr fun entry inside => by simpa using notLater entry inside
  rw [coherent.visit_entries recordable, none, all, List.nil_append]

theorem Coherent.visit_current? (coherent : trail.Coherent) {location : Location}
    (recordable : location.isRecordable = true) (icon : Option String) (now : Instant) :
    (trail.visit location icon now).1.current? =
      (trail.laterOthers location.key now).head?.or (some (trail.recordedVisit location icon now)) := by
  have cursor : (trail.visit location icon now).1.cursor = some 0 := by
    rw [visit_of_recordable recordable]
  have some : trail.limit ≠ 0 := by
    have := coherent.least_limit
    omega
  rw [current?, cursor, Option.bind_some, coherent.visit_entries recordable, ← List.head?_eq_getElem?,
    List.head?_take, if_neg some, List.head?_append]
  rfl

/-- The location of a visit is in the trail unless as many others as the trail may hold are later
than the visit, and it is the current one exactly when no other is later. -/
theorem current?_visit (limit : Nat) (actions : List Action) (location : Location)
    (icon : Option String) (now : Instant) :
    let trail := (empty limit).run actions
    let after := (trail.visit location icon now).1
    let later := trail.laterOthers location.key now
    location.isRecordable = true →
      (trail.visit location icon now).2 = true ∧
      ((∃ entry ∈ after.entries, Key.same entry.key location.key = true ∧ entry.visited = now) ↔
        later.length < trail.limit) ∧
      ((∃ entry, after.current? = some entry ∧ Key.same entry.key location.key = true) ↔
        later = []) ∧
      (later ≠ [] → after.current? = later.head?) := by
  intro trail after later recordable
  have coherent : trail.Coherent := coherent_run (coherent_empty limit) actions
  have key := trail.recordedVisit_key location icon now
  have shown : after.current? = later.head?.or (some (trail.recordedVisit location icon now)) :=
    coherent.visit_current? recordable icon now
  have different : ∀ entry ∈ later, Key.same entry.key location.key = false := by
    intro entry inside
    simpa using (List.mem_filter.mp (List.mem_filter.mp inside).1).2
  refine ⟨congrArg Prod.snd (visit_of_recordable recordable icon now), ⟨?_, fun room => ?_⟩, ?_, ?_⟩
  · rintro ⟨entry, inside, same, -⟩
    refine Nat.lt_of_not_le fun full => ?_
    rw [coherent.visit_entries recordable, List.take_append_of_le_length full] at inside
    exact absurd same (by simp [different entry (List.mem_of_mem_take inside)])
  · refine ⟨trail.recordedVisit location icon now, ?_, key, recordedVisit_visited location icon now⟩
    obtain ⟨more, space⟩ := Nat.exists_eq_add_of_lt room
    have left : trail.limit - later.length = more + 1 := by omega
    rw [coherent.visit_entries recordable, List.take_append, left, List.take_succ_cons]
    exact List.mem_append_right _ List.mem_cons_self
  · constructor
    · rintro ⟨entry, current, same⟩
      cases first : later with
      | nil => rfl
      | cons head rest =>
          rw [shown, first] at current
          cases current
          have inside : entry ∈ later := by rw [first]; exact List.mem_cons_self
          exact absurd same (by simp [different entry inside])
    · intro none
      exact ⟨trail.recordedVisit location icon now, by rw [shown, none]; rfl, key⟩
  · intro some
    obtain ⟨head, rest, first⟩ := List.exists_cons_of_ne_nil some
    rw [shown, first]
    rfl

def aheadList : List Action :=
  [.replace [⟨"/a", "a", none, ⟨5, 0⟩, 0⟩]]

theorem run_aheadList : (empty 10).run aheadList =
    ⟨[⟨"/a", "a", none, ⟨5, 0⟩, 1⟩], some 0, 10, 2⟩ := by
  cbv

theorem current?_visit_behind :
    let trail := (empty 10).run aheadList
    let after := (trail.visit (.named "/b" "b") none ⟨2, 0⟩).1
    (Location.named "/b" "b").isRecordable = true ∧
      (∃ entry ∈ after.entries, Key.same entry.key "/b" = true ∧ entry.visited = ⟨2, 0⟩) ∧
      after.current? = some ⟨"/a", "a", none, ⟨5, 0⟩, 1⟩ := by
  intro trail after
  have recordable : (Location.named "/b" "b").isRecordable = true := by decide
  have later : trail.laterOthers "/b" ⟨2, 0⟩ = [⟨"/a", "a", none, ⟨5, 0⟩, 1⟩] := by
    simp only [trail, run_aheadList]
    decide
  obtain ⟨-, inside, -, current⟩ :=
    current?_visit 10 aheadList (.named "/b" "b") none ⟨2, 0⟩ recordable
  refine ⟨recordable, inside.mpr ?_, (current ?_).trans ?_⟩
  · change (trail.laterOthers "/b" ⟨2, 0⟩).length < trail.limit
    rw [later, show trail.limit = 10 from congrArg Trail.limit run_aheadList]
    decide
  · exact fun none => absurd (later.symm.trans none) (by decide)
  · exact congrArg List.head? later

theorem not_current?_visit_same :
    ¬∀ (limit : Nat) (actions : List Action) (location : Location) (icon : Option String)
      (now : Instant),
      let trail := (empty limit).run actions
      let after := (trail.visit location icon now).1
      location.isRecordable = true → (trail.visit location icon now).2 = true →
        ∃ entry ∈ after.entries, Key.same entry.key location.key = true ∧
          after.current? = some entry := by
  intro same
  obtain ⟨entry, -, key, current⟩ :=
    same 10 aheadList (.named "/b" "b") none ⟨2, 0⟩ (by decide) (by cbv)
  have first : (((empty 10).run aheadList).visit (.named "/b" "b") none ⟨2, 0⟩).1.current? =
      some ⟨"/a", "a", none, ⟨5, 0⟩, 1⟩ := by cbv
  rw [first] at current
  cases current
  exact absurd key (by decide)

end Trail
end Waymark
