import Waymark.Proofs.Key.Under
import Waymark.Proofs.Trail.Removal
/-!
# Removing what lies under a root

Lying at or under a key is reflexive and transitive. What was removed with a root was therefore
removed with every key under it, and there is nothing left to remove there. Separators behind a root
make a difference to the entry of the root itself, which they leave, and to no other.
-/

namespace Waymark.Trail

variable {trail : Trail} {root : String}

theorem removeUnder_entries (trail : Trail) (root : String) :
    (trail.removeUnder root).1.entries =
      trail.entries.filter fun entry => !Key.isAtOrUnder entry.key root :=
  withEntries_entries List.filter_sublist

theorem removeUnder_of_none
    (none : ∀ entry ∈ trail.entries, Key.isAtOrUnder entry.key root = false) :
    trail.removeUnder root = (trail, false) := by
  have all : (trail.entries.filter fun entry => !Key.isAtOrUnder entry.key root) = trail.entries :=
    List.filter_eq_self.mpr fun entry inside => by simp [none entry inside]
  rw [removeUnder, all, withEntries, if_pos rfl]

theorem not_isAtOrUnder_of_removeUnder {entry : Entry}
    (stays : entry ∈ (trail.removeUnder root).1.entries) :
    Key.isAtOrUnder entry.key root = false := by
  rw [removeUnder_entries] at stays
  simpa using (List.mem_filter.mp stays).2

/-- Keys are in a preorder, the empty key apart, and a root that lies under a removed one has
nothing left. -/
theorem isAtOrUnder_preorder :
    (∀ key : String, key ≠ "" → Key.isAtOrUnder key key = true) ∧
      (∀ a b c : String, Key.isAtOrUnder a b = true → Key.isAtOrUnder b c = true →
        Key.isAtOrUnder a c = true) ∧
      ∀ (trail : Trail) (inner outer : String), Key.isAtOrUnder inner outer = true →
        (trail.removeUnder outer).1.removeUnder inner = ((trail.removeUnder outer).1, false) := by
  refine ⟨fun key some => Key.isAtOrUnder_self some, fun a b c => Key.isAtOrUnder_trans, ?_⟩
  intro trail inner outer below
  refine removeUnder_of_none fun entry stays => Bool.eq_false_iff.mpr fun within => ?_
  exact absurd (Key.isAtOrUnder_trans within below) (by simp [not_isAtOrUnder_of_removeUnder stays])

def folderTrail : Trail :=
  ⟨[⟨"c:\\DATA/Sub//x", "x", none, ⟨2, 0⟩, 2⟩, ⟨"C:\\Database", "d", none, ⟨1, 0⟩, 1⟩],
    some 0, 10, 3⟩

theorem preorder_mixedSeparators :
    Key.isAtOrUnder "c:\\DATA/Sub//x" "C:\\data/sub/" = true ∧
      Key.isAtOrUnder "C:\\data/sub/" "C:\\Data\\\\" = true ∧
      Key.isAtOrUnder "c:\\DATA/Sub//x" "C:\\Data\\\\" = true ∧
      "C:\\data/sub/" ≠ "" ∧ Key.isAtOrUnder "C:\\data/sub/" "C:\\data/sub/" = true ∧
      let after := (folderTrail.removeUnder "C:\\Data\\\\").1
      after.entries = folderTrail.entries.drop 1 ∧
        after.removeUnder "C:\\data/sub/" = (after, false) := by
  obtain ⟨reflexive, transitive, removed⟩ := isAtOrUnder_preorder
  have first : Key.isAtOrUnder "c:\\DATA/Sub//x" "C:\\data/sub/" = true := by decide
  have second : Key.isAtOrUnder "C:\\data/sub/" "C:\\Data\\\\" = true := by decide
  have some : "C:\\data/sub/" ≠ "" := by decide
  refine ⟨first, second, transitive _ _ _ first second, some, reflexive _ some, ?_,
    removed folderTrail _ _ second⟩
  decide

/-- With separators behind it, a root removes what is below it and leaves its own entry. -/
theorem removeUnder_append (trail : Trail) (root separators : String) (named : root ≠ "")
    (bare : Key.EndsBare root) (some : separators ≠ "")
    (all : ∀ c ∈ separators.toList, Key.isSeparator c = true) :
    let whole := (trail.removeUnder root).1
    let below := (trail.removeUnder (root ++ separators)).1
    below.entries = trail.entries.filter (fun entry =>
        Key.same entry.key root || !Key.isAtOrUnder entry.key root) ∧
      (∀ entry ∈ trail.entries,
        entry ∉ below.entries ↔ entry ∉ whole.entries ∧ Key.same entry.key root = false) := by
  intro whole below
  have same : ∀ key, Key.isAtOrUnder key (root ++ separators) =
      (Key.isAtOrUnder key root && !Key.same key root) := fun key => by
    rw [Bool.eq_iff_iff, Key.isAtOrUnder_append bare named some all key]
    simp
  have left : below.entries = trail.entries.filter (fun entry =>
      Key.same entry.key root || !Key.isAtOrUnder entry.key root) := by
    refine (removeUnder_entries trail _).trans (List.filter_congr fun entry _ => ?_)
    rw [same, Bool.not_and, Bool.not_not, Bool.or_comm]
  refine ⟨left, fun entry inside => ?_⟩
  rw [left, show whole.entries = _ from removeUnder_entries trail root, List.mem_filter,
    List.mem_filter]
  simp [inside, and_comm]

def homeTrail : Trail :=
  ⟨[⟨"/homes", "homes", none, ⟨3, 0⟩, 3⟩, ⟨"/home\\me", "me", none, ⟨2, 0⟩, 2⟩,
    ⟨"/HOME", "home", none, ⟨1, 0⟩, 1⟩], some 0, 10, 4⟩

theorem removeUnder_append_home :
    ("/home" ≠ "" ∧ Key.EndsBare "/home" ∧ "/\\" ≠ "" ∧
      ∀ c ∈ "/\\".toList, Key.isSeparator c = true) ∧
      (homeTrail.removeUnder ("/home" ++ "/\\")).1.entries =
        [⟨"/homes", "homes", none, ⟨3, 0⟩, 3⟩, ⟨"/HOME", "home", none, ⟨1, 0⟩, 1⟩] := by
  have named : "/home" ≠ "" := by decide
  have bare : Key.EndsBare "/home" := fun last ends => by
    obtain rfl : 'e' = last := Option.some.inj ends
    decide
  have some : "/\\" ≠ "" := by decide
  have all : ∀ c ∈ "/\\".toList, Key.isSeparator c = true := List.all_eq_true.mp (by decide)
  refine ⟨⟨named, bare, some, all⟩, ?_⟩
  refine (removeUnder_append homeTrail "/home" "/\\" named bare some all).1.trans ?_
  decide

def oneVisit : List Action :=
  [.visit (.named "/a" "a") none ⟨1, 0⟩]

theorem run_oneVisit : (empty 10).run oneVisit =
    ⟨[⟨"/a", "a", none, ⟨1, 0⟩, 1⟩], some 0, 10, 2⟩ := by
  cbv

theorem not_removeUnder_append_same :
    ¬∀ (limit : Nat) (actions : List Action) (root separators : String), root ≠ "" →
      Key.EndsBare root → separators ≠ "" →
      (∀ c ∈ separators.toList, Key.isSeparator c = true) →
      let trail := (empty limit).run actions
      ∀ entry ∈ trail.entries, entry ∉ (trail.removeUnder root).1.entries →
        entry ∉ (trail.removeUnder (root ++ separators)).1.entries := by
  intro removed
  have bare : Key.EndsBare "/a" := fun last ends => by
    obtain rfl : 'a' = last := Option.some.inj ends
    decide
  have all : ∀ c ∈ "/".toList, Key.isSeparator c = true := List.all_eq_true.mp (by decide)
  have gone := removed 10 oneVisit "/a" "/" (by decide) bare (by decide) all
  simp only [run_oneVisit] at gone
  exact gone _ List.mem_cons_self (by decide) (by decide)

end Waymark.Trail
