import Waymark.Proofs.Trail.Order
/-!
# Lists of entries

What recording a visit and taking over a list do to the keys and the sequences of the entries.
-/

namespace Waymark.Trail
open Entry

variable {key : String} {change : Entry → Entry} {new : Entry}

theorem upsert_ne_nil (entries : List Entry) : upsert key change new entries ≠ [] := by
  cases entries with
  | nil => simp [upsert]
  | cons first rest =>
      unfold upsert
      split <;> simp

theorem mem_upsert (condition : Entry → Prop) (changed : ∀ entry, condition (change entry))
    (made : condition new) {entries : List Entry} {entry : Entry}
    (member : entry ∈ upsert key change new entries) : entry ∈ entries ∨ condition entry := by
  induction entries with
  | nil =>
      rw [List.mem_singleton.mp member]
      exact .inr made
  | cons first rest ih =>
      unfold upsert at member
      split at member
      · rcases List.mem_cons.mp member with here | there
        · exact .inr (here ▸ changed first)
        · exact .inl (List.mem_cons_of_mem _ there)
      · rcases List.mem_cons.mp member with here | there
        · exact .inl (here ▸ List.mem_cons_self)
        · exact (ih there).imp_left (List.mem_cons_of_mem _)

theorem key_of_mem_upsert (kept : ∀ entry, (change entry).key = entry.key) (made : new.key = key)
    {entries : List Entry} {entry : Entry} (member : entry ∈ upsert key change new entries) :
    entry.key = key ∨ ∃ old ∈ entries, entry.key = old.key := by
  induction entries with
  | nil =>
      rw [List.mem_singleton.mp member]
      exact .inl made
  | cons first rest ih =>
      unfold upsert at member
      split at member
      · rcases List.mem_cons.mp member with here | there
        · exact .inr ⟨first, List.mem_cons_self, by rw [here, kept]⟩
        · exact .inr ⟨entry, List.mem_cons_of_mem _ there, rfl⟩
      · rcases List.mem_cons.mp member with here | there
        · exact .inr ⟨entry, here ▸ List.mem_cons_self, rfl⟩
        · refine (ih there).imp_right fun ⟨old, inside, equal⟩ => ?_
          exact ⟨old, List.mem_cons_of_mem _ inside, equal⟩

theorem upsert_keysDiffer (kept : ∀ entry, (change entry).key = entry.key) (made : new.key = key)
    {entries : List Entry} (differ : KeysDiffer entries) :
    KeysDiffer (upsert key change new entries) := by
  induction entries with
  | nil => exact List.pairwise_singleton _ _
  | cons first rest ih =>
      have apart := List.pairwise_cons.mp differ
      unfold upsert
      split
      · refine List.pairwise_cons.mpr ⟨fun other there => ?_, apart.2⟩
        rw [kept]
        exact apart.1 other there
      · rename_i another
        refine List.pairwise_cons.mpr ⟨fun other there => ?_, ih apart.2⟩
        rcases key_of_mem_upsert kept made there with new | ⟨old, inside, equal⟩
        · rw [new]
          simpa using another
        · rw [equal]
          exact apart.1 old inside

theorem upsert_toldApart {sequence : Nat} (changed : ∀ entry, (change entry).sequence = sequence)
    (made : new.sequence = sequence) {entries : List Entry} (apart : ToldApart entries)
    (older : ∀ entry ∈ entries, entry.sequence < sequence) :
    ToldApart (upsert key change new entries) := by
  induction entries with
  | nil => exact List.pairwise_singleton _ _
  | cons first rest ih =>
      have split := List.pairwise_cons.mp apart
      obtain ⟨firstOlder, restOlder⟩ := List.forall_mem_cons.mp older
      unfold upsert
      split
      · refine List.pairwise_cons.mpr ⟨fun other there => ?_, split.2⟩
        rw [changed]
        exact Nat.ne_of_gt (restOlder other there)
      · refine List.pairwise_cons.mpr ⟨fun other there => ?_, ih split.2 restOlder⟩
        rcases mem_upsert (·.sequence = sequence) changed made there with old | new
        · exact split.1 other old
        · rw [new]
          exact Nat.ne_of_lt firstOlder

theorem sequence_of_mem_numbered {entries : List Entry} {entry : Entry}
    (member : entry ∈ numbered entries) : entry.sequence ≤ entries.length := by
  induction entries with
  | nil => cases member
  | cons first rest ih =>
      rcases List.mem_cons.mp member with here | there
      · rw [here]
        exact Nat.le_refl _
      · exact Nat.le_succ_of_le (ih there)

theorem numbered_toldApart (entries : List Entry) : ToldApart (numbered entries) := by
  induction entries with
  | nil => exact .nil
  | cons first rest ih =>
      refine List.pairwise_cons.mpr ⟨fun other there => ?_, ih⟩
      have := sequence_of_mem_numbered there
      exact Nat.ne_of_gt (Nat.lt_succ_of_le this)

def addNew (kept : List Entry) (entry : Entry) : List Entry :=
  if kept.any fun other => Key.same other.key entry.key then kept else kept ++ [entry]

theorem addNew_keysDiffer {kept : List Entry} (differ : KeysDiffer kept) (entry : Entry) :
    KeysDiffer (addNew kept entry) := by
  unfold addNew
  split
  · exact differ
  · rename_i absent
    refine List.pairwise_append.mpr ⟨differ, List.pairwise_singleton _ _, ?_⟩
    intro other inside last isLast
    rw [List.mem_singleton.mp isLast]
    have different : ¬Key.same other.key entry.key = true :=
      fun same => absent (List.any_eq_true.mpr ⟨other, inside, same⟩)
    simpa using different

theorem distinct_keysDiffer (entries : List Entry) : KeysDiffer (distinct entries) := by
  suffices ∀ kept, KeysDiffer kept → KeysDiffer (entries.foldl addNew kept) from this [] .nil
  induction entries with
  | nil => exact fun kept differ => differ
  | cons first rest ih => exact fun kept differ => ih _ (addNew_keysDiffer differ first)

theorem distinct_sublist (entries : List Entry) : (distinct entries).Sublist entries := by
  suffices ∀ kept, (entries.foldl addNew kept).Sublist (kept ++ entries) from this []
  induction entries with
  | nil =>
      intro kept
      simp
  | cons first rest ih =>
      intro kept
      refine (ih (addNew kept first)).trans ?_
      unfold addNew
      split
      · exact (List.sublist_cons_self first rest).append_left kept
      · simp

theorem distinct_of_keysDiffer {entries : List Entry} (differ : KeysDiffer entries) :
    distinct entries = entries := by
  suffices ∀ kept, KeysDiffer (kept ++ entries) → entries.foldl addNew kept = kept ++ entries from
    this [] differ
  clear differ
  induction entries with
  | nil =>
      intro kept _
      simp
  | cons first rest ih =>
      intro kept differ
      have absent : (kept.any fun other => Key.same other.key first.key) = false := by
        have across := (List.pairwise_append.mp differ).2.2
        refine List.any_eq_false.mpr fun other inside => ?_
        rw [across other inside first List.mem_cons_self]
        decide
      have added : addNew kept first = kept ++ [first] := by simp [addNew, absent]
      rw [List.foldl_cons, added, ih]
      · simp
      · simpa using differ

end Waymark.Trail
