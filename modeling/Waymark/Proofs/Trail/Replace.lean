import Waymark.Proofs.Trail.Coherent
/-!
# Taking over an ordered list

A list that is in order and names each location once is taken over as it is. Only the sequences are
given anew, so that a trail comes back from a copy of its entries that lacks them.
-/

namespace Waymark

def Entry.bare (entry : Entry) : Entry :=
  { entry with sequence := 0 }

namespace Trail
open Entry

@[simp] theorem numbered_map_bare (entries : List Entry) :
    (numbered entries).map bare = entries.map bare := by
  induction entries with
  | nil => rfl
  | cons first rest ih =>
      simp only [numbered, List.map_cons, ih]
      rfl

theorem numbered_of_map_bare {entries others : List Entry}
    (same : entries.map bare = others.map bare) : numbered entries = numbered others := by
  induction entries generalizing others with
  | nil => rw [List.map_eq_nil_iff.mp same.symm]
  | cons first rest ih =>
      cases others with
      | nil => cases same
      | cons other more =>
          obtain ⟨here, there⟩ := List.cons.inj same
          have lengths : rest.length = more.length := by simpa using congrArg List.length there
          have fields := Entry.mk.inj here
          simp only [numbered, ih there, lengths, fields.1, fields.2.1, fields.2.2.1, fields.2.2.2.1]

theorem mem_numbered {entries : List Entry} {entry : Entry} (member : entry ∈ numbered entries) :
    ∃ old ∈ entries, entry.key = old.key ∧ entry.visited = old.visited := by
  induction entries with
  | nil => cases member
  | cons first rest ih =>
      rcases List.mem_cons.mp member with here | there
      · exact ⟨first, List.mem_cons_self, by rw [here], by rw [here]⟩
      · obtain ⟨old, inside, same⟩ := ih there
        exact ⟨old, List.mem_cons_of_mem _ inside, same⟩

theorem numbered_keysDiffer {entries : List Entry} (differ : KeysDiffer entries) :
    KeysDiffer (numbered entries) := by
  induction entries with
  | nil => exact .nil
  | cons first rest ih =>
      have apart := List.pairwise_cons.mp differ
      refine List.pairwise_cons.mpr ⟨fun other there => ?_, ih apart.2⟩
      obtain ⟨old, inside, key, _⟩ := mem_numbered there
      rw [key]
      exact apart.1 old inside

theorem mem_replace {trail : Trail} {entries : List Entry} {entry : Entry}
    (member : entry ∈ (trail.replace entries).entries) :
    ∃ old ∈ entries, entry.key = old.key ∧ entry.visited = old.visited :=
  mem_numbered (mem_sort.mp ((distinct_sublist _).subset member))

theorem numbered_later {entries : List Entry}
    (ordered : entries.Pairwise fun a b => ¬a.visited < b.visited) :
    (numbered entries).Pairwise Later := by
  induction entries with
  | nil => exact .nil
  | cons first rest ih =>
      have before := List.pairwise_cons.mp ordered
      refine List.pairwise_cons.mpr ⟨fun other there => ?_, ih before.2⟩
      obtain ⟨old, inside, _, visited⟩ := mem_numbered there
      have notBefore : ¬first.visited < other.visited := visited ▸ before.1 old inside
      have number := sequence_of_mem_numbered there
      -- Numbers fall along the list, so entries of one time stay in their order.
      refine Later.of_not_later (fun later => ?_) (by simp only; omega)
      rcases later with newer | ⟨-, higher⟩
      · exact notBefore newer
      · exact Nat.not_lt_of_le (Nat.le_succ_of_le number) higher

variable {trail : Trail}

theorem replace_entries_of_ordered {entries : List Entry}
    (ordered : entries.Pairwise fun a b => ¬a.visited < b.visited) (differ : KeysDiffer entries) :
    (trail.replace entries).entries = numbered entries := by
  change distinct (Entry.sort (numbered entries)) = numbered entries
  rw [sort_of_later (numbered_later ordered), distinct_of_keysDiffer (numbered_keysDiffer differ)]

theorem Coherent.ordered (coherent : trail.Coherent) :
    trail.entries.Pairwise fun a b => ¬a.visited < b.visited :=
  coherent.sorted.imp fun later before => later.asymm (.inl before)

theorem Coherent.replace_copy (coherent : trail.Coherent) (other : Trail) {copy : List Entry}
    (same : copy.map bare = trail.entries.map bare) :
    (other.replace copy).entries.map bare = trail.entries.map bare := by
  have taken : (other.replace copy).entries = (other.replace trail.entries).entries := by
    change distinct (Entry.sort (numbered copy)) = distinct (Entry.sort (numbered trail.entries))
    rw [numbered_of_map_bare same]
  rw [taken, replace_entries_of_ordered coherent.ordered coherent.keysDiffer, numbered_map_bare]

theorem replace_cursor (entries : List Entry) :
    (trail.replace entries).cursor =
      if (trail.replace entries).entries.isEmpty then none else some 0 :=
  rfl

end Trail
end Waymark
