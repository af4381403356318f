import Waymark.Proofs.Trail.Replace
import Waymark.Proofs.Trail.Visited
/-!
# A visit as an insertion

Changing an entry or adding one, sorting and cutting come to one insertion: the entry of the
location is taken out, and the entry of the visit goes in directly before the first entry that is
not later.
-/

namespace Waymark.Trail
open Entry

def insertVisit (visit : Entry) : List Entry → List Entry
  | [] => [visit]
  | entry :: entries =>
      if visit.visited < entry.visited then entry :: insertVisit visit entries
      else visit :: entry :: entries

theorem insertVisit_eq (visit : Entry) {entries : List Entry}
    (ordered : entries.Pairwise fun a b => ¬a.visited < b.visited) :
    insertVisit visit entries =
      entries.filter (fun entry => visit.visited < entry.visited) ++
        visit :: entries.filter fun entry => !decide (visit.visited < entry.visited) := by
  induction entries with
  | nil => rfl
  | cons first rest ih =>
      obtain ⟨before, others⟩ := List.pairwise_cons.mp ordered
      by_cases later : visit.visited < first.visited
      · simp [insertVisit, later, ih others]
      · -- From here on nothing is later, since the list is in order.
        have reached : ∀ entry ∈ rest, ¬visit.visited < entry.visited := fun entry inside after =>
          before entry inside (Instant.lt_of_not_lt_of_lt later after)
        have none : (rest.filter fun entry => visit.visited < entry.visited) = [] :=
          List.filter_eq_nil_iff.mpr fun entry inside => by simpa using reached entry inside
        have all : (rest.filter fun entry => !decide (visit.visited < entry.visited)) = rest :=
          List.filter_eq_self.mpr fun entry inside => by simpa using reached entry inside
        simp [insertVisit, later, none, all]

theorem filter_insertVisit {keep : Entry → Bool} {visit : Entry} (dropped : keep visit = false)
    (entries : List Entry) : (insertVisit visit entries).filter keep = entries.filter keep := by
  induction entries with
  | nil => simp [insertVisit, dropped]
  | cons first rest ih =>
      unfold insertVisit
      split
      · simp only [List.filter_cons, ih]
      · rw [List.filter_cons_of_neg (by simp [dropped])]

variable {trail : Trail}

theorem Coherent.sort_eq_insertVisit (coherent : trail.Coherent) (location : Location)
    (icon : Option String) (now : Instant) :
    Entry.sort (trail.visitedEntries location icon now) =
      insertVisit (trail.recordedVisit location icon now) (trail.others location.key) := by
  have ordered : (trail.others location.key).Pairwise fun a b => ¬a.visited < b.visited :=
    coherent.ordered.filter _
  rw [coherent.sort_visitedEntries, insertVisit_eq _ ordered, recordedVisit_visited]
  rfl

theorem isRecordable_iff (location : Location) :
    location.isRecordable = true ↔ location.isPlaceholder = false ∧ location.key ≠ "" := by
  simp [Location.isRecordable]

/-- A visit takes the entry of its location out and puts one with the new name and time before the
first entry that is not later, then cuts the list at the limit. The entry keeps the spelling of its
key and its icon, and no other entry changes. A placeholder or an empty key changes nothing. -/
theorem visit_inserts (limit : Nat) (actions : List Action) (location : Location)
    (icon : Option String) (now : Instant) :
    let trail := (empty limit).run actions
    let others := trail.entries.eraseP fun entry => Key.same entry.key location.key
    let visited : Entry := match trail.find? location.key with
      | some old => ⟨old.key, location.name, old.icon.or icon, now, trail.nextSequence⟩
      | none => ⟨location.key, location.name, icon, now, trail.nextSequence⟩
    (location.isPlaceholder = true ∨ location.key = "" →
        trail.visit location icon now = (trail, false)) ∧
      (location.isPlaceholder = false → location.key ≠ "" →
        trail.visit location icon now =
          (⟨(insertVisit visited others).take trail.limit, some 0, trail.limit,
            trail.nextSequence + 1⟩, true) ∧
        (∀ entry ∈ others, Key.same entry.key location.key = false) ∧
        ((trail.visit location icon now).1.entries.filter
          fun entry => !Key.same entry.key location.key) <+: others) := by
  intro trail others visited
  have coherent : trail.Coherent := coherent_run (coherent_empty limit) actions
  have rest : others = trail.others location.key :=
    Key.eraseP_eq_filter Entry.key coherent.keysDiffer _
  have recorded : visited = trail.recordedVisit location icon now := by
    simp only [visited, recordedVisit]
    cases trail.find? location.key <;> rfl
  have different : ∀ entry ∈ others, Key.same entry.key location.key = false := by
    intro entry inside
    have other : entry ∈ trail.others location.key := rest ▸ inside
    simpa using (List.mem_filter.mp other).2
  refine ⟨fun transient => ?_, fun standing named => ?_⟩
  · refine visit_of_not_recordable (Bool.eq_false_iff.mpr fun recordable => ?_) icon now
    obtain ⟨standing, named⟩ := (isRecordable_iff location).mp recordable
    rcases transient with placeholder | unnamed
    · simp [placeholder] at standing
    · exact named unnamed
  · have outcome : trail.visit location icon now =
        (⟨(insertVisit visited others).take trail.limit, some 0, trail.limit,
          trail.nextSequence + 1⟩, true) := by
      rw [visit_of_recordable ((isRecordable_iff location).mpr ⟨standing, named⟩),
        coherent.sort_eq_insertVisit, rest, recorded]
    refine ⟨outcome, different, ?_⟩
    have dropped : (!Key.same visited.key location.key) = false := by
      rw [recorded, trail.recordedVisit_key location icon now]
      rfl
    have stay : (others.filter fun entry => !Key.same entry.key location.key) = others :=
      List.filter_eq_self.mpr fun entry inside => by simp [different entry inside]
    have cut : (insertVisit visited others).take trail.limit <+: insertVisit visited others :=
      List.take_prefix trail.limit _
    have kept := cut.filter fun entry => !Key.same entry.key location.key
    rw [filter_insertVisit dropped, stay] at kept
    rw [outcome]
    exact kept

def threeTaken : List Action :=
  [.replace [⟨"/c", "c", none, ⟨5, 0⟩, 0⟩, ⟨"/B", "b", some "folder", ⟨3, 0⟩, 0⟩,
    ⟨"/a", "a", none, ⟨1, 0⟩, 0⟩]]

theorem run_threeTaken : (empty 10).run threeTaken =
    ⟨[⟨"/c", "c", none, ⟨5, 0⟩, 3⟩, ⟨"/B", "b", some "folder", ⟨3, 0⟩, 2⟩,
      ⟨"/a", "a", none, ⟨1, 0⟩, 1⟩], some 0, 10, 4⟩ := by
  cbv

theorem visit_inserts_between :
    let location := Location.named "/b" "new"
    location.isPlaceholder = false ∧ location.key ≠ "" ∧
      ((empty 10).run threeTaken).visit location (some "file") ⟨1, 0⟩ =
        (⟨[⟨"/c", "c", none, ⟨5, 0⟩, 3⟩, ⟨"/B", "new", some "folder", ⟨1, 0⟩, 4⟩,
          ⟨"/a", "a", none, ⟨1, 0⟩, 1⟩], some 0, 10, 5⟩, true) := by
  intro location
  have named : location.key ≠ "" := by decide
  refine ⟨rfl, named, ?_⟩
  refine ((visit_inserts 10 threeTaken location (some "file") ⟨1, 0⟩).2 rfl named).1.trans ?_
  rw [run_threeTaken]
  decide

end Waymark.Trail
