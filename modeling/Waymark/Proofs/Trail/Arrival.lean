import Waymark.Proofs.Trail.Inserted
import Waymark.Proofs.Trail.Recent
/-!
# Visits in any order of arrival

Visits to different locations at different times leave the same entries in whatever order they are
recorded. A cut after each of them takes nothing away that one cut at the end would leave, and without
cuts every visit goes to its place in the order of the times.
-/

namespace Waymark

theorem Instant.lt_of_ne {a b : Instant} (differ : a ≠ b) (notBefore : ¬a < b) : b < a := by
  rcases lt_trichotomy a b with before | same | behind
  · exact absurd before notBefore
  · exact absurd same differ
  · exact behind

namespace Visit

def only (visit : Visit) : Entry :=
  .ofVisit visit.location visit.icon visit.now 0

def newestFirst (visits : List Visit) : List Visit :=
  visits.mergeSort fun a b => !decide (a.now < b.now)

theorem newestFirst_perm (visits : List Visit) : (newestFirst visits).Perm visits :=
  List.mergeSort_perm _ _

theorem newestFirst_descending {visits : List Visit}
    (apart : visits.Pairwise fun a b => a.now ≠ b.now) :
    (newestFirst visits).Pairwise fun a b => b.now < a.now := by
  have sorted := @List.pairwise_mergeSort Visit (fun a b => !decide (a.now < b.now))
    (fun a b c first second => by
      simp only [Bool.not_eq_true', decide_eq_false_iff_not] at *
      exact fun before => second (Instant.lt_of_not_lt_of_lt first before))
    (fun a b => by
      rcases Instant.lt_trichotomy a.now b.now with before | same | behind
      · simp [Instant.lt_asymm before]
      · simp [same, Instant.lt_irrefl]
      · simp [Instant.lt_asymm behind]) visits
  have differ : (newestFirst visits).Pairwise fun a b => a.now ≠ b.now :=
    apart.perm (newestFirst_perm visits).symm fun other => other.symm
  exact (sorted.and differ).imp fun both => Instant.lt_of_ne both.2 (by simpa using both.1)

end Visit

namespace Trail
open Entry

theorem insertVisit_perm (visit : Entry) (entries : List Entry) :
    (insertVisit visit entries).Perm (visit :: entries) := by
  induction entries with
  | nil => exact .refl _
  | cons first rest ih =>
      unfold insertVisit
      split
      · exact (ih.cons first).trans (.swap _ _ _)
      · exact .refl _

theorem insertVisit_ordered {visit : Entry} {entries : List Entry}
    (ordered : entries.Pairwise fun a b => ¬a.visited < b.visited) :
    (insertVisit visit entries).Pairwise fun a b => ¬a.visited < b.visited := by
  induction entries with
  | nil => exact List.pairwise_singleton _ _
  | cons first rest ih =>
      obtain ⟨before, others⟩ := List.pairwise_cons.mp ordered
      unfold insertVisit
      split
      · rename_i later
        refine List.pairwise_cons.mpr ⟨fun other inside => ?_, ih others⟩
        rcases List.mem_cons.mp ((insertVisit_perm visit rest).mem_iff.mp inside) with here | there
        · exact here ▸ Instant.lt_asymm later
        · exact before other there
      · rename_i reached
        refine List.pairwise_cons.mpr ⟨fun other inside => ?_, ordered⟩
        rcases List.mem_cons.mp inside with here | there
        · exact here ▸ reached
        · exact fun after => before other there (Instant.lt_of_not_lt_of_lt reached after)

theorem insertVisit_map_bare (visit : Entry) (entries : List Entry) :
    (insertVisit visit entries).map bare = insertVisit visit.bare (entries.map bare) := by
  induction entries with
  | nil => rfl
  | cons first rest ih =>
      have same : (visit.bare.visited < first.bare.visited) = (visit.visited < first.visited) := rfl
      simp only [insertVisit, List.map_cons, same]
      split <;> simp [ih]

/-- What an earlier cut took away would not have come back with another entry. -/
theorem take_insertVisit_take (visit : Entry) (entries : List Entry) (count : Nat) :
    (insertVisit visit (entries.take count)).take count =
      (insertVisit visit entries).take count := by
  induction entries generalizing count with
  | nil => simp
  | cons first rest ih =>
      cases count with
      | zero => simp
      | succ count =>
          simp only [List.take_succ_cons, insertVisit]
          split
          · rw [List.take_succ_cons, List.take_succ_cons, ih]
          · rw [List.take_succ_cons, List.take_succ_cons]
            cases count with
            | zero => rfl
            | succ count => rw [List.take_succ_cons, List.take_succ_cons, List.take_take,
                Nat.min_eq_left (Nat.le_succ count)]

def inserted (log : List Visit) : List Entry :=
  log.foldr (fun visit entries => insertVisit visit.only entries) []

theorem inserted_perm (log : List Visit) : (inserted log).Perm (log.map Visit.only) := by
  induction log with
  | nil => exact .refl _
  | cons visit log ih => exact (insertVisit_perm _ _).trans (ih.cons _)

theorem inserted_ordered (log : List Visit) :
    (inserted log).Pairwise fun a b => ¬a.visited < b.visited := by
  induction log with
  | nil => exact .nil
  | cons visit log ih => exact insertVisit_ordered ih

theorem inserted_eq_newestFirst {log visits : List Visit} (same : log.Perm visits)
    (apart : visits.Pairwise fun a b => a.now ≠ b.now) :
    inserted log = (Visit.newestFirst visits).map Visit.only := by
  have copies : (inserted log).Perm (visits.map Visit.only) :=
    (inserted_perm log).trans (same.map _)
  have times : (visits.map Visit.only).Pairwise fun a b => a.visited ≠ b.visited :=
    List.pairwise_map.mpr apart
  have differ : (inserted log).Pairwise fun a b => a.visited ≠ b.visited :=
    times.perm copies.symm fun other => other.symm
  have descending : (inserted log).Pairwise fun a b => b.visited < a.visited :=
    ((inserted_ordered log).and differ).imp fun both => Instant.lt_of_ne both.2 both.1
  exact (copies.trans ((Visit.newestFirst_perm visits).symm.map _)).eq_of_pairwise
    (fun a b _ _ ab ba => absurd ba (Instant.lt_asymm ab)) descending
    (List.pairwise_map.mpr (Visit.newestFirst_descending apart))

variable {limit : Nat} {log : List Visit}

theorem entries_ofLog (recorded : ∀ visit ∈ log, visit.isRecorded = true)
    (differ : log.Pairwise fun a b => b.isTo a.location.key = false) :
    (ofLog limit log).entries.map bare = (inserted log).take (clampLimit limit) := by
  induction log with
  | nil => simp [ofLog, empty, inserted]
  | cons visit log ih =>
      obtain ⟨here, before⟩ := List.forall_mem_cons.mp recorded
      obtain ⟨another, others⟩ := List.pairwise_cons.mp differ
      have shown := ih before others
      have coherent := coherent_ofLog limit log
      have absent : ∀ entry ∈ (ofLog limit log).entries,
          Key.same entry.key visit.location.key = false := by
        intro entry inside
        have copied : entry.bare ∈ (inserted log).take (clampLimit limit) :=
          shown ▸ List.mem_map_of_mem inside
        have listed := (inserted_perm log).mem_iff.mp (List.mem_of_mem_take copied)
        obtain ⟨other, there, same⟩ := List.mem_map.mp listed
        have key : other.location.key = entry.key := congrArg Entry.key same
        exact key ▸ another other there
      have rest : (ofLog limit log).others visit.location.key = (ofLog limit log).entries :=
        List.filter_eq_self.mpr fun entry inside => by simp [absent entry inside]
      have new : (ofLog limit log).find? visit.location.key = none :=
        List.find?_eq_none.mpr fun entry inside => by simp [absent entry inside]
      have copy : ((ofLog limit log).recordedVisit visit.location visit.icon visit.now).bare =
          visit.only := by
        rw [recordedVisit, new]
        rfl
      change ((ofLog limit log).visit visit.location visit.icon visit.now).1.entries.map bare = _
      rw [visit_of_recordable here, coherent.sort_eq_insertVisit, rest, List.map_take,
        insertVisit_map_bare, copy, shown, limit_ofLog, take_insertVisit_take]
      rfl

/-- Visits to different locations at different times leave the latest of them, the newest first, in
whatever order they arrive. -/
theorem entries_visitAll_perm (limit : Nat) (visits : List Visit)
    (recorded : ∀ visit ∈ visits, visit.isRecorded = true)
    (differ : visits.Pairwise fun a b => Key.same a.location.key b.location.key = false)
    (apart : visits.Pairwise fun a b => a.now ≠ b.now) :
    (Visit.newestFirst visits).Perm visits ∧
      (Visit.newestFirst visits).Pairwise (fun a b => b.now < a.now) ∧
      ∀ arrived : List Visit, arrived.Perm visits →
        ((empty limit).visitAll arrived).entries.map bare =
          ((Visit.newestFirst visits).take (clampLimit limit)).map Visit.only := by
  refine ⟨Visit.newestFirst_perm visits, Visit.newestFirst_descending apart, ?_⟩
  intro arrived perm
  have same : arrived.reverse.Perm visits := (List.reverse_perm arrived).trans perm
  have locations : visits.Pairwise fun a b => b.isTo a.location.key = false :=
    differ.imp fun {a b} other => by rwa [Visit.isTo, Key.same_comm]
  have symmetric : ∀ {a b : Visit}, b.isTo a.location.key = false → a.isTo b.location.key = false :=
    fun {a b} other => by rwa [Visit.isTo, Key.same_comm]
  rw [visitAll_eq_ofLog, entries_ofLog (fun visit inside => recorded visit (same.mem_iff.mp inside))
    (locations.perm same.symm symmetric), inserted_eq_newestFirst same apart, List.map_take]

def scatteredVisits : List Visit :=
  (List.range 12).map fun index =>
    ⟨.named (toString index) "place", none, ⟨(5 * index) % 12, 0⟩⟩

theorem entries_scatteredVisits :
    ((∀ visit ∈ scatteredVisits, visit.isRecorded = true) ∧
      (scatteredVisits.Pairwise fun a b => Key.same a.location.key b.location.key = false) ∧
      scatteredVisits.Pairwise fun a b => a.now ≠ b.now) ∧
      ((empty 3).visitAll scatteredVisits).entries.map bare =
        ((empty 3).visitAll scatteredVisits.reverse).entries.map bare ∧
      (((empty 3).visitAll scatteredVisits).entries.map Entry.key) =
        ["7", "2", "9", "4", "11", "6", "1", "8", "3", "10"] := by
  have recorded : ∀ visit ∈ scatteredVisits, visit.isRecorded = true := by decide +kernel
  have differ : scatteredVisits.Pairwise fun a b =>
      Key.same a.location.key b.location.key = false := by decide +kernel
  have apart : scatteredVisits.Pairwise fun a b => a.now ≠ b.now := by decide +kernel
  obtain ⟨-, -, arrival⟩ := entries_visitAll_perm 3 scatteredVisits recorded differ apart
  have forward := arrival scatteredVisits (.refl _)
  refine ⟨⟨recorded, differ, apart⟩, forward.trans (arrival _ (List.reverse_perm _)).symm, ?_⟩
  have keys := congrArg (List.map Entry.key) forward
  rw [List.map_map] at keys
  refine Eq.trans keys ?_
  cbv

end Trail
end Waymark
