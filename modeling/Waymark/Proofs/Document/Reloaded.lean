import Waymark.Proofs.Document.Followed
/-!
# Files that are read again

Reading the file again takes over what it holds, and reports the names that went and then those that
came or changed. It does nothing while a save is pending, or if no bag can be read from the file, and
nothing more as long as the file stays the same.
-/

namespace Waymark.Document

variable {document : Document} {disk later : Disk} {path : Path} {file : Bag} {name : String}

def Holds (disk : Disk) (path : Path) (file : Bag) : Prop :=
  ∃ bytes, disk.contents? path = .ok (some bytes) ∧ Bag.ofBytes bytes = .ok file

theorem read_iff : read disk path = .ok (some file) ↔ Holds disk path file := by
  unfold read Holds
  cases disk.contents? path with
  | error fault => simp [bind, Except.bind]
  | ok contents =>
      cases contents with
      | none => simp [bind, Except.bind]
      | some bytes =>
          simp only [bind, Except.bind, Except.ok.injEq, Option.some.injEq, exists_eq_left']
          split <;> simp [*]

theorem reload_of_unread (unread : ∀ file, ¬Holds disk document.path file) :
    document.reload disk = (document, []) := by
  unfold reload
  split
  · rfl
  split
  · exact absurd (read_iff.mp ‹_›) (unread _)
  · rfl

theorem reload_of_pending (pending : document.isPending = true) :
    document.reload disk = (document, []) := by
  rw [reload, if_pos pending]

theorem reload_of_holds (idle : document.isPending = false) (holds : Holds disk document.path file) :
    document.reload disk =
      ({ document with bag := file }.announce (document.bag.changes file),
        document.bag.changes file) := by
  rw [reload, idle, read_iff.mpr holds]
  rfl

/-- What is reported when a bag takes the place of another: the names that are gone, then those that
are new or have another value, each part in the order of the lower-cased names. -/
structure Reports (old new : Bag) (names : List String) : Prop where
  parts : ∃ gone changed, names = gone ++ changed ∧
    (gone.Pairwise fun a b => Text.lower a < Text.lower b) ∧
    (changed.Pairwise fun a b => Text.lower a < Text.lower b) ∧
    (∀ name, name ∈ gone ↔ name ∈ old.names ∧ new.value? name = none) ∧
    ∀ name, name ∈ changed ↔ name ∈ new.names ∧ ¬old.AgreeOn new name
  once : names.Pairwise fun a b => Text.lower a ≠ Text.lower b
  tells : Bag.Tells names old new

theorem mem_names_iff {bag : Bag} :
    name ∈ bag.names ↔ ∃ property ∈ bag.properties, property.name = name :=
  List.mem_map

theorem reports_changes (old new : Bag) : Reports old new (old.changes new) where
  parts := by
    refine ⟨_, _, rfl, List.pairwise_map.mpr (old.ordered.filter _),
      List.pairwise_map.mpr (new.ordered.filter _), fun name => ?_, fun name => ?_⟩
    · rw [Bag.mem_missingIn, mem_names_iff]
      constructor
      · rintro ⟨property, inside, missing, rfl⟩
        exact ⟨⟨property, inside, rfl⟩, missing⟩
      · rintro ⟨⟨property, inside, rfl⟩, missing⟩
        exact ⟨property, inside, missing, rfl⟩
    · rw [Bag.mem_changedFrom, mem_names_iff]
      constructor
      · rintro ⟨property, inside, changed, rfl⟩
        refine ⟨⟨property, inside, rfl⟩, ?_⟩
        rw [Bag.AgreeOn, Bag.value?_of_mem inside, changed]
        exact Bool.false_ne_true
      · rintro ⟨⟨property, inside, rfl⟩, differ⟩
        rw [Bag.AgreeOn, Bag.value?_of_mem inside] at differ
        exact ⟨property, inside, Bool.eq_false_iff.mpr differ, rfl⟩
  once := Bag.changes_differ old new
  tells := Bag.tells_changes old new

theorem changes_self (bag : Bag) : bag.changes bag = [] :=
  (Bag.tells_changes bag bag).eq_nil fun _ => Bag.agreeOn_of_eq rfl

structure TakesOver (before : Document) (file : Bag) (outcome : Document × List String) : Prop where
  document : outcome.1 =
    { before with bag := file, notices := before.notices.postAll outcome.2 }
  reports : Reports before.bag file outcome.2

theorem holds_congr (same : later.contents? path = disk.contents? path) :
    Holds later path file ↔ Holds disk path file := by
  rw [Holds, Holds, same]

theorem reload_again (same : later.contents? document.path = disk.contents? document.path) :
    (document.reload disk).1.reload later = ((document.reload disk).1, []) := by
  cases pending : document.isPending with
  | true =>
      rw [reload_of_pending pending]
      exact reload_of_pending pending
  | false =>
      by_cases there : ∃ file, Holds disk document.path file
      · obtain ⟨file, holds⟩ := there
        rw [reload_of_holds pending holds]
        refine Eq.trans (reload_of_holds pending ((holds_congr same).mpr holds)) ?_
        simp only [announce, changes_self, Mailbox.postAll, List.foldl_nil]
      · have unread : ∀ file, ¬Holds disk document.path file := not_exists.mp there
        rw [reload_of_unread unread]
        exact reload_of_unread fun file => mt (holds_congr same).mp (unread file)

/-- Reading the file again takes over a bag that it holds, and is passed over otherwise. Either way
nothing is left to take over as long as the file has the same contents. -/
theorem reload_takesOver (document : Document) (disk : Disk) :
    (document.isPending = true ∨ (∀ file, ¬Holds disk document.path file) →
      document.reload disk = (document, [])) ∧
    (∀ file, document.isPending = false → Holds disk document.path file →
      document.TakesOver file (document.reload disk)) ∧
    ∀ later, later.contents? document.path = disk.contents? document.path →
      (document.reload disk).1.reload later = ((document.reload disk).1, []) := by
  refine ⟨fun excused => excused.elim reload_of_pending reload_of_unread, ?_,
    fun later same => reload_again same⟩
  intro file idle holds
  rw [reload_of_holds idle holds]
  exact ⟨rfl, reports_changes document.bag file⟩

def lightTheme : Document :=
  .ofBag ⟨"/s.json"⟩
    ((Bag.empty.set "theme" (.string "light")).1.set "size" (.integer 1)).1 true

theorem reload_takesOver_edited :
    lightTheme.TakesOver Follower.editedBag (lightTheme.reload Follower.editedDisk) ∧
      (lightTheme.reload Follower.editedDisk).2 = ["size", "THEME"] ∧
      ((lightTheme.reload Follower.editedDisk).1.reload Follower.editedDisk).2 = [] ∧
      ({ lightTheme with isPending := true }.reload Follower.editedDisk).2 = [] := by
  have holds := read_iff.mp Follower.read_editedDisk
  obtain ⟨-, takes, again⟩ := reload_takesOver lightTheme Follower.editedDisk
  obtain ⟨passed, -⟩ := reload_takesOver { lightTheme with isPending := true } Follower.editedDisk
  refine ⟨takes _ rfl holds, ?_, ?_, ?_⟩
  · rw [reload_of_holds rfl holds]
    decide +kernel
  · rw [again Follower.editedDisk rfl]
  · rw [passed (.inl rfl)]

end Waymark.Document
