import Waymark.Proofs.Trail.Replace
import Waymark.Proofs.Trail.Visited
/-!
# Taking over any list

A trail takes a list over in the order of time, the newest first, with entries of one time as they
were, and of each location it keeps the first entry in that order. A visit at the newest time still
comes before everything that was taken over.
-/

namespace Waymark.Trail
open Entry

/-- An order by time, the newest first, that leaves entries of one time in their places. -/
structure NewestFirst (given ordered : List Entry) : Prop where
  perm : ordered.Perm given
  descending : ordered.Pairwise fun a b => ¬a.visited < b.visited
  stable : ∀ time, ordered.filter (·.visited = time) = given.filter (·.visited = time)

def firstOfEach : List Entry → List Entry
  | [] => []
  | entry :: entries =>
      entry :: (firstOfEach entries).filter fun other => !Key.same entry.key other.key

theorem numbered_descending (entries : List Entry) :
    (numbered entries).Pairwise fun a b => b.sequence < a.sequence := by
  induction entries with
  | nil => exact .nil
  | cons first rest ih =>
      refine List.pairwise_cons.mpr ⟨fun other there => ?_, ih⟩
      exact Nat.lt_succ_of_le (sequence_of_mem_numbered there)

theorem sort_numbered_stable (entries : List Entry) (time : Instant) :
    (Entry.sort (numbered entries)).filter (·.visited = time) =
      (numbered entries).filter (·.visited = time) := by
  have sorted := sort_later (numbered_toldApart entries)
  have descending : ((Entry.sort (numbered entries)).filter (·.visited = time)).Pairwise
      fun a b => b.sequence < a.sequence := by
    refine List.pairwise_filter.mpr (sorted.imp fun {a b} later here there => ?_)
    simp only [decide_eq_true_eq] at here there
    exact Later.sequence_lt later (here.trans there.symm)
  exact ((sort_perm _).filter _).eq_of_pairwise (fun a b _ _ ab ba => absurd ba (Nat.lt_asymm ab))
    descending ((numbered_descending entries).filter _)

theorem newestFirst_sort (entries : List Entry) :
    NewestFirst (entries.map bare) ((Entry.sort (numbered entries)).map bare) where
  perm := numbered_map_bare entries ▸ (sort_perm _).map bare
  descending := List.pairwise_map.mpr <|
    (sort_not_later (numbered entries)).imp fun notLater before => notLater (.inl before)
  stable time := by
    have byTime : ∀ list : List Entry, (list.map bare).filter (·.visited = time) =
        (list.filter (·.visited = time)).map bare := fun list => List.filter_map
    rw [byTime, sort_numbered_stable, ← byTime, numbered_map_bare]

theorem foldl_addNew (kept entries : List Entry) :
    entries.foldl addNew kept = kept ++ (firstOfEach entries).filter
      fun entry => !kept.any fun other => Key.same other.key entry.key := by
  induction entries generalizing kept with
  | nil => simp [firstOfEach]
  | cons first rest ih =>
      rw [List.foldl_cons, ih, firstOfEach, addNew]
      cases known : kept.any fun other => Key.same other.key first.key with
      | true =>
          -- What is the same as the first entry is known as well.
          have agree : ∀ entry ∈ firstOfEach rest,
              (!kept.any fun other => Key.same other.key entry.key) =
                ((!kept.any fun other => Key.same other.key entry.key) &&
                  !Key.same first.key entry.key) := by
            intro entry _
            cases same : Key.same first.key entry.key with
            | false => simp
            | true =>
                simp only [Key.same_comm _ first.key, Key.same_congr same] at known
                simp only [Key.same_comm _ entry.key, known]
                rfl
          rw [if_pos rfl, List.filter_cons_of_neg (by simp [known]), List.filter_filter,
            List.filter_congr agree]
      | false =>
          rw [if_neg Bool.false_ne_true, List.filter_cons_of_pos (by simp [known]),
            List.filter_filter, List.append_assoc, List.singleton_append]
          simp only [List.any_append, List.any_cons, List.any_nil, Bool.or_false, Bool.not_or]

theorem distinct_eq_firstOfEach (entries : List Entry) :
    distinct entries = firstOfEach entries := by
  refine (foldl_addNew [] entries).trans ?_
  simp

theorem firstOfEach_map_bare (entries : List Entry) :
    (firstOfEach entries).map bare = firstOfEach (entries.map bare) := by
  induction entries with
  | nil => rfl
  | cons first rest ih =>
      rw [firstOfEach, List.map_cons, List.map_cons, firstOfEach, ← ih, List.filter_map]
      rfl

variable {trail : Trail}

theorem replace_entries (trail : Trail) (entries : List Entry) :
    (trail.replace entries).entries.map bare =
      firstOfEach ((Entry.sort (numbered entries)).map bare) := by
  rw [← firstOfEach_map_bare, ← distinct_eq_firstOfEach]
  rfl

theorem replace_entries_eq_nil (trail : Trail) (entries : List Entry) :
    (trail.replace entries).entries = [] ↔ entries = [] := by
  have nothing : ∀ list : List Entry, firstOfEach list = [] ↔ list = [] := fun list => by
    cases list <;> simp [firstOfEach]
  have length := (newestFirst_sort entries).perm.length_eq
  rw [← List.map_eq_nil_iff (f := bare), replace_entries, nothing, ← List.length_eq_zero_iff,
    length, List.length_map, List.length_eq_zero_iff]

theorem Coherent.visit_at_newest (coherent : trail.Coherent) {location : Location}
    (recordable : location.isRecordable = true) (icon : Option String) {newest : Entry}
    (first : trail.entries.head? = some newest) :
    (trail.visit location icon newest.visited).1.entries.head? =
      some (trail.recordedVisit location icon newest.visited) := by
  obtain ⟨rest, entries⟩ := List.head?_eq_some_iff.mp first
  have ordered := coherent.ordered
  rw [entries, List.pairwise_cons] at ordered
  have latest : ∀ entry ∈ trail.entries, ¬newest.visited < entry.visited := by
    rw [entries]
    exact List.forall_mem_cons.mpr ⟨Instant.lt_irrefl _, ordered.1⟩
  have some : trail.limit ≠ 0 := by
    have := coherent.least_limit
    omega
  rw [coherent.visit_entries_of_latest recordable icon latest, List.head?_take, if_neg some]
  rfl

/-- What a trail holds after it took a list over. The list is put in order and thinned out as
described above, nothing but the sequences changes in an entry, the newest entry is the current one,
and a later visit at its time comes before it. The entries of a trail are taken over as they are. -/
theorem replace_orders (limit : Nat) (actions : List Action) (entries : List Entry) :
    let prior := (empty limit).run actions
    let trail := prior.replace entries
    (∃ ordered, NewestFirst (entries.map bare) ordered ∧
        trail.entries.map bare = firstOfEach ordered) ∧
      trail.cursor = (if entries = [] then none else some 0) ∧
      trail.limit = prior.limit ∧
      (∀ (more : List Action) (location : Location) (icon : Option String) (newest : Entry),
        let later := trail.run more
        location.isRecordable = true → later.entries.head? = some newest →
          ∃ first, (later.visit location icon newest.visited).1.entries.head? = some first ∧
            Key.same first.key location.key = true ∧ first.visited = newest.visited) ∧
      ∀ (size : Nat) (steps : List Action),
        let reached := (empty size).run steps
        (prior.replace reached.entries).entries.map bare = reached.entries.map bare := by
  intro prior trail
  have coherent : trail.Coherent := (coherent_run (coherent_empty limit) actions).replace entries
  refine ⟨⟨_, newestFirst_sort entries, replace_entries prior entries⟩, ?_, rfl, ?_, ?_⟩
  · rw [replace_cursor]
    simp only [List.isEmpty_iff, replace_entries_eq_nil]
  · intro more location icon newest later recordable first
    have still : later.Coherent := coherent_run coherent more
    exact ⟨_, still.visit_at_newest recordable icon first, recordedVisit_key location icon _,
      recordedVisit_visited location icon _⟩
  · intro size steps reached
    have still : reached.Coherent := coherent_run (coherent_empty size) steps
    exact still.replace_copy prior rfl

def unsortedList : List Entry :=
  [⟨"/b", "b", none, ⟨5, 0⟩, 0⟩, ⟨"/a", "a", none, ⟨9, 0⟩, 0⟩, ⟨"/A", "old", none, ⟨1, 0⟩, 0⟩,
    ⟨"/c", "c", none, ⟨5, 0⟩, 0⟩]

theorem replace_unsortedList : ((empty 10).replace unsortedList).entries =
    [⟨"/a", "a", none, ⟨9, 0⟩, 3⟩, ⟨"/b", "b", none, ⟨5, 0⟩, 4⟩, ⟨"/c", "c", none, ⟨5, 0⟩, 1⟩] := by
  cbv

theorem replace_orders_unsorted :
    let trail := (empty 10).replace unsortedList
    let location := Location.named "/c" "again"
    location.isRecordable = true ∧ trail.entries.head? = some ⟨"/a", "a", none, ⟨9, 0⟩, 3⟩ ∧
      ∃ first, (trail.visit location none ⟨9, 0⟩).1.entries.head? = some first ∧
        Key.same first.key "/c" = true ∧ first.visited = ⟨9, 0⟩ := by
  intro trail location
  have recordable : location.isRecordable = true := by decide
  have newest : trail.entries.head? = some ⟨"/a", "a", none, ⟨9, 0⟩, 3⟩ :=
    congrArg List.head? replace_unsortedList
  obtain ⟨-, -, -, visited, -⟩ := replace_orders 10 [] unsortedList
  exact ⟨recordable, newest, visited [] location none _ recordable newest⟩

end Waymark.Trail
