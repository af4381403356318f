import Mathlib
import Waymark.Proofs.Trail.Coherent
/-!
# Removals and the cursor

A removal keeps the index of the cursor, limited to what is left of the list. Where newer entries
went, the cursor therefore comes to stand on an older entry than before, as far as there is one.
-/

namespace Waymark

theorem filter_mem_of_sublist {α : Type} [DecidableEq α] {kept all : List α} (nodup : all.Nodup)
    (sublist : kept.Sublist all) : all.filter (· ∈ kept) = kept := by
  have contains : kept.Sublist (all.filter (· ∈ kept)) := by
    simpa [List.filter_eq_self.mpr] using sublist.filter (· ∈ kept)
  have within : all.filter (· ∈ kept) ⊆ kept := fun other inside => by
    simpa using List.of_mem_filter inside
  exact (contains.eq_of_length_le (List.subperm_of_subset (nodup.filter _) within).length_le).symm

theorem getElem?_eq_first_iff {α : Type} {first : α} {rest : List α} (nodup : (first :: rest).Nodup)
    {index : Nat} : (first :: rest)[index]? = some first ↔ index = 0 := by
  cases index with
  | zero => simp
  | succ behind =>
      refine iff_of_false (fun same => ?_) (Nat.succ_ne_zero behind)
      rw [List.getElem?_cons_succ] at same
      exact (List.nodup_cons.mp nodup).1 (List.mem_of_getElem? same)

namespace Trail
open Entry

inductive Removal where
  | key (key : String)
  | under (root : String)
  | missing (isThere : String → Bool)

def remove (trail : Trail) : Removal → Trail × Bool
  | .key key => trail.removeKey key
  | .under root => trail.removeUnder root
  | .missing isThere => trail.prune isThere

theorem remove_eq (trail : Trail) (removal : Removal) :
    ∃ kept : List Entry, kept.Sublist trail.entries ∧ trail.remove removal = trail.withEntries kept := by
  cases removal with
  | key key => exact ⟨_, List.eraseP_sublist, rfl⟩
  | under root => exact ⟨_, List.filter_sublist, rfl⟩
  | missing isThere => exact ⟨_, List.filter_sublist, rfl⟩

variable {trail : Trail}

theorem withEntries_entries {kept : List Entry} (sublist : kept.Sublist trail.entries) :
    (trail.withEntries kept).1.entries = kept := by
  unfold withEntries
  split
  · exact (sublist.eq_of_length ‹_›).symm
  · rfl

theorem Coherent.withEntries_cursor (coherent : trail.Coherent) {kept : List Entry} {place : Nat}
    (here : trail.cursor = some place) (nonempty : kept ≠ []) :
    (trail.withEntries kept).1.cursor = some (min place (kept.length - 1)) := by
  unfold Trail.withEntries
  split
  · rename_i nothing
    have inside := coherent.cursor_lt place here
    rw [here, Nat.min_eq_left (by omega)]
  · have some : kept.length ≠ 0 := by simpa using nonempty
    simp [clampCursor, some, here]

theorem Coherent.nodup (coherent : trail.Coherent) : trail.entries.Nodup :=
  coherent.toldApart.imp fun different same => different (congrArg Entry.sequence same)

theorem kept_eq {kept : List Entry} {place : Nat} {entry : Entry} (nodup : trail.entries.Nodup)
    (sublist : kept.Sublist trail.entries) (here : trail.entries[place]? = some entry)
    (stays : entry ∈ kept) :
    kept = (trail.entries.take place).filter (· ∈ kept) ++
      entry :: (trail.entries.drop (place + 1)).filter (· ∈ kept) := by
  obtain ⟨inside, same⟩ := List.getElem?_eq_some_iff.mp here
  have split : trail.entries =
      trail.entries.take place ++ entry :: trail.entries.drop (place + 1) := by
    rw [← same, List.getElem_cons_drop, List.take_append_drop]
  calc kept = trail.entries.filter (· ∈ kept) := (filter_mem_of_sublist nodup sublist).symm
    _ = _ := by
        conv_lhs => rw [split]
        rw [List.filter_append, List.filter_cons_of_pos (by simpa using stays)]

/-- A removal that leaves the current entry: the cursor goes as many entries further back as newer
ones went, or to the last entry. It stays on its entry only if no newer entry went or no older one
is left. -/
theorem current?_remove (limit : Nat) (actions : List Action) (removal : Removal) (place : Nat)
    (entry : Entry) :
    let trail := (empty limit).run actions
    let after := (trail.remove removal).1
    let newer := (trail.entries.take place).filter (· ∈ after.entries)
    let older := (trail.entries.drop (place + 1)).filter (· ∈ after.entries)
    trail.cursor = some place → trail.current? = some entry → entry ∈ after.entries →
      after.entries = newer ++ entry :: older ∧
      after.cursor = some (min place (after.entries.length - 1)) ∧
      after.current? = (entry :: older)[min (place - newer.length) older.length]? ∧
      (after.current? = some entry ↔ newer = trail.entries.take place ∨ older = []) := by
  intro trail after newer older here current stays
  have coherent : trail.Coherent := coherent_run (coherent_empty limit) actions
  obtain ⟨kept, sublist, removed⟩ := remove_eq trail removal
  have entries : after.entries = kept :=
    (congrArg (fun outcome => outcome.1.entries) removed).trans (withEntries_entries sublist)
  have found : trail.entries[place]? = some entry := by simpa [current?, here] using current
  have inside := coherent.cursor_lt place here
  have parts : after.entries = newer ++ entry :: older :=
    kept_eq coherent.nodup (entries ▸ sublist) found stays
  have cursor : after.cursor = some (min place (after.entries.length - 1)) := by
    have nonempty : kept ≠ [] := List.ne_nil_of_mem (entries ▸ stays)
    rw [entries, ← coherent.withEntries_cursor here nonempty, ← removed]
  have fewer : newer.length ≤ place :=
    Nat.le_trans (List.length_filter_le _ _) (List.length_take_le _ _)
  have shown : after.current? = (entry :: older)[min (place - newer.length) older.length]? := by
    have shift : min place (after.entries.length - 1) - newer.length =
        min (place - newer.length) older.length := by
      rw [parts, List.length_append, List.length_cons]
      omega
    have behind : newer.length ≤ min place (after.entries.length - 1) := by
      rw [parts, List.length_append, List.length_cons]
      omega
    rw [current?, cursor, Option.bind_some, ← shift, ← List.getElem?_append_right behind, ← parts]
  refine ⟨parts, cursor, shown, ?_⟩
  have apart : (entry :: older).Nodup :=
    (List.nodup_append.mp (parts ▸ entries ▸ coherent.nodup.sublist sublist)).2.1
  have all : newer = trail.entries.take place ↔ place - newer.length = 0 := by
    have whole : (trail.entries.take place).length = place := List.length_take_of_le (Nat.le_of_lt inside)
    refine ⟨fun same => by rw [same, whole, Nat.sub_self], fun nothing => ?_⟩
    refine List.filter_sublist.eq_of_length ?_
    change newer.length = _
    omega
  rw [shown, getElem?_eq_first_iff apart, all, ← List.length_eq_zero_iff]
  omega

def threeVisits : List Action :=
  [.visit (.named "/a" "a") none ⟨1, 0⟩, .visit (.named "/b" "b") none ⟨2, 0⟩,
    .visit (.named "/c" "c") none ⟨3, 0⟩, .back 1]

def firstVisit : Entry :=
  ⟨"/a", "a", none, ⟨1, 0⟩, 1⟩

def secondVisit : Entry :=
  ⟨"/b", "b", none, ⟨2, 0⟩, 2⟩

theorem run_threeVisits : (empty 10).run threeVisits =
    ⟨[⟨"/c", "c", none, ⟨3, 0⟩, 3⟩, secondVisit, firstVisit], some 1, 10, 4⟩ := by
  cbv

theorem remove_threeVisits : (((empty 10).run threeVisits).remove (.key "/c")).1 =
    ⟨[secondVisit, firstVisit], some 1, 10, 4⟩ := by
  rw [run_threeVisits]
  cbv

theorem current?_remove_newest :
    let trail := (empty 10).run threeVisits
    let after := (trail.remove (.key "/c")).1
    (trail.cursor = some 1 ∧ trail.current? = some secondVisit ∧ secondVisit ∈ after.entries) ∧
      after.current? = some firstVisit := by
  intro trail after
  have here : trail.cursor = some 1 := congrArg Trail.cursor run_threeVisits
  have current : trail.current? = some secondVisit := congrArg Trail.current? run_threeVisits
  have stays : secondVisit ∈ after.entries := by simp [after, trail, remove_threeVisits]
  have shown := current?_remove 10 threeVisits (.key "/c") 1 secondVisit here current stays
  refine ⟨⟨here, current, stays⟩, shown.2.2.1.trans ?_⟩
  simp only [run_threeVisits]
  decide

theorem not_current?_remove_same :
    ¬∀ (limit : Nat) (actions : List Action) (removal : Removal) (entry : Entry),
      let trail := (empty limit).run actions
      let after := (trail.remove removal).1
      trail.current? = some entry → entry ∈ after.entries →
        after.current?.map Entry.key = some entry.key := by
  intro same
  have kept := same 10 threeVisits (.key "/c") secondVisit
    (congrArg Trail.current? run_threeVisits) (by simp [remove_threeVisits])
  rw [remove_threeVisits] at kept
  exact absurd kept (by decide)

end Trail
end Waymark
