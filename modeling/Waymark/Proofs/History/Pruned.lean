import Waymark.Proofs.Session.Opened
import Waymark.Proofs.Settings.Favorites
import Waymark.Proofs.Trail.Removal
/-!
# Entries whose locations are gone

To look up which keys are gone and then to remove the entries with those keys comes to keeping the
entries whose locations are there. What that changes is recorded, and to do it again changes nothing.
-/

namespace Waymark

namespace Trail

variable {trail : Trail} {isThere : String → Bool}

theorem withEntries_eq {kept : List Entry} (sublist : kept.Sublist trail.entries) :
    (trail.withEntries kept).1 =
      { trail with entries := kept, cursor := (trail.withEntries kept).1.cursor } := by
  unfold withEntries
  split
  · rename_i same
    rw [sublist.eq_of_length same]
  · rfl

theorem withEntries_changed_iff {kept : List Entry} (sublist : kept.Sublist trail.entries) :
    (trail.withEntries kept).2 = true ↔ (trail.withEntries kept).1.entries ≠ trail.entries := by
  rw [withEntries_entries sublist]
  unfold withEntries
  split
  · rename_i same
    simp [sublist.eq_of_length same]
  · rename_i fewer
    exact iff_of_true rfl fun same => fewer (congrArg List.length same)

theorem prune_changed_iff : (trail.prune isThere).2 = true ↔
    ∃ entry ∈ trail.entries, isThere entry.key = false := by
  rw [prune, withEntries_changed_iff List.filter_sublist, withEntries_entries List.filter_sublist,
    Ne, List.filter_eq_self]
  simp

/-- The entries whose locations are there, with the cursor in its place or on the last of them. -/
def pruned (trail : Trail) (isThere : String → Bool) : Trail :=
  let kept := trail.entries.filter fun entry => isThere entry.key
  { trail with
    entries := kept
    cursor := if kept = [] then none else trail.cursor.map (min · (kept.length - 1)) }

theorem Coherent.prune_eq_pruned (coherent : trail.Coherent) :
    (trail.prune isThere).1 = trail.pruned isThere := by
  have sublist : (trail.entries.filter fun entry => isThere entry.key).Sublist trail.entries :=
    List.filter_sublist
  rw [prune, withEntries_eq sublist, pruned]
  congr 1
  split
  · rename_i none
    rw [(coherent.withEntries sublist).cursor_none, withEntries_entries sublist, none]
  · rename_i some
    cases here : trail.cursor with
    | none =>
        rw [coherent.cursor_none.mp here] at some
        exact absurd rfl some
    | some place => exact coherent.withEntries_cursor here some

theorem prune_prune (trail : Trail) (isThere : String → Bool) :
    (trail.prune isThere).1.prune isThere = ((trail.prune isThere).1, false) := by
  have entries : (trail.prune isThere).1.entries =
      trail.entries.filter fun entry => isThere entry.key := withEntries_entries List.filter_sublist
  have all : ((trail.prune isThere).1.entries.filter fun entry => isThere entry.key) =
      (trail.prune isThere).1.entries := by
    rw [entries, List.filter_filter]
    simp
  generalize (trail.prune isThere).1 = after at all
  rw [prune, all, withEntries, if_pos rfl]

end Trail

namespace History

variable {history : History} {isThere : String → Bool}

theorem contains_missing {entry : Entry} (inside : entry ∈ history.trail.entries) :
    (history.missing isThere).contains entry.key = !isThere entry.key := by
  have listed : entry.key ∈ history.trail.entries.map Entry.key := List.mem_map_of_mem inside
  rw [Bool.eq_iff_iff, List.contains_iff_mem, missing, List.mem_filter]
  exact and_iff_right listed

theorem prune_missing (history : History) (isThere : String → Bool) :
    (history.trail.prune fun key => !(history.missing isThere).contains key) =
      history.trail.prune isThere := by
  have same : (history.trail.entries.filter fun entry =>
      !(history.missing isThere).contains entry.key) =
        history.trail.entries.filter fun entry => isThere entry.key :=
    List.filter_congr fun entry inside => by rw [contains_missing inside, Bool.not_not]
  rw [Trail.prune, same, Trail.prune]

theorem commit_prune_unchanged (unchanged : (history.trail.prune isThere).2 = false)
    (disk : Disk) : history.commit disk (history.trail.prune isThere) = (history, disk, false) := by
  rw [commit_unchanged unchanged]
  exact congrArg (fun trail => (({ history with trail } : History), disk, false))
    (Trail.withEntries_unchanged unchanged)

theorem prune_eq_commit (history : History) (disk : Disk) (isThere : String → Bool) :
    history.prune disk isThere = history.commit disk (history.trail.prune isThere) := by
  unfold prune removeMissing
  split
  · rename_i none
    have unchanged : (history.trail.prune isThere).2 = false := by
      refine Bool.eq_false_iff.mpr fun changed => ?_
      obtain ⟨entry, inside, gone⟩ := Trail.prune_changed_iff.mp changed
      have listed : (history.missing isThere).contains entry.key = true := by
        rw [contains_missing inside, gone]
        rfl
      rw [List.isEmpty_iff.mp none] at listed
      cases listed
    exact (commit_prune_unchanged unchanged disk).symm
  · rw [prune_missing]

theorem prune_trail (history : History) (disk : Disk) (isThere : String → Bool) :
    ((history.prune disk isThere).1.trail, (history.prune disk isThere).2.2) =
      history.trail.prune isThere := by
  rw [prune_eq_commit]
  cases changed : (history.trail.prune isThere).2 with
  | true =>
      rw [commit_changed changed, ← changed]
      rfl
  | false =>
      rw [commit_unchanged changed, ← changed]

theorem prune_changed (history : History) (disk : Disk) (isThere : String → Bool) :
    let outcome := history.prune disk isThere
    outcome.2.2 = true →
      (outcome.1.document, outcome.2.1) =
        history.document.setAndSave disk entriesName (entriesValue outcome.1.trail.entries) ∧
      outcome.1.document.bag.value? entriesName = some (entriesValue outcome.1.trail.entries) := by
  intro outcome changed
  have same : (history.trail.prune isThere).2 = true :=
    (congrArg Prod.snd (history.prune_trail disk isThere)).symm.trans changed
  have recorded : outcome = _ :=
    (history.prune_eq_commit disk isThere).trans (commit_changed same disk)
  have saved : (outcome.1.document, outcome.2.1) =
      history.document.setAndSave disk entriesName (entriesValue outcome.1.trail.entries) := by
    rw [recorded]
    rfl
  refine ⟨saved, ?_⟩
  have document : outcome.1.document = _ := congrArg Prod.fst saved
  rw [document, (Document.setAndSave_bag _ _ _ _).1]
  exact Bag.value?_set (by decide) (entriesValue_noDoubles _)

theorem prune_unchanged (history : History) (disk : Disk) (isThere : String → Bool)
    (unchanged : (history.prune disk isThere).2.2 = false) :
    history.prune disk isThere = (history, disk, false) := by
  have same : (history.trail.prune isThere).2 = false :=
    (congrArg Prod.snd (history.prune_trail disk isThere)).symm.trans unchanged
  rw [prune_eq_commit, commit_prune_unchanged same]

theorem prune_again (history : History) (disk : Disk) (isThere : String → Bool) :
    let after := (history.prune disk isThere).1
    ∀ later : Disk, after.prune later isThere = (after, later, false) := by
  intro after later
  have pruned : after.trail = (history.trail.prune isThere).1 :=
    congrArg Prod.fst (history.prune_trail disk isThere)
  have nothing : after.trail.prune isThere = (after.trail, false) := by
    rw [pruned]
    exact Trail.prune_prune _ _
  rw [prune_eq_commit, nothing]
  rfl

end History

theorem Session.prune_history (session : Session) (disk : Disk) (isThere : String → Bool) :
    (session.prune disk isThere).1.history = (session.history.prune disk isThere).1 := by
  simp only [prune, emitIf_history]

theorem Session.prune_settings (session : Session) (disk : Disk) (isThere : String → Bool) :
    let pruned := session.prune disk isThere
    Settings.favorites pruned.1.settings.bag =
        (Settings.favorites session.settings.bag).filter (fun favorite => isThere favorite.key) ∧
      (pruned.2.2 = true ↔ (session.history.prune disk isThere).2.2 = true ∨
        Settings.favorites pruned.1.settings.bag ≠ Settings.favorites session.settings.bag) := by
  have left := Settings.pruneFavorites_favorites session.settings
    (session.history.prune disk isThere).2.1 isThere
  simp only [prune, emitIf_settings, Bool.or_eq_true]
  exact ⟨left.1, or_congr_right left.2⟩

/-- Entries whose locations are gone are removed as if each was looked up at its removal, and a
session tells whether an entry or a favorite went. -/
theorem History.prune_keeps_there (limit : Nat) (actions : List Trail.Action) (layout : Layout)
    (settings document : Document) (events : List Event) (disk : Disk) (isThere : String → Bool) :
    let trail := (Trail.empty limit).run actions
    let history : History := ⟨trail, document⟩
    let outcome := history.prune disk isThere
    let after := outcome.1
    let left := (Session.mk layout settings history events).prune disk isThere
    ((after.trail, outcome.2.2) = trail.prune isThere ∧
      after.trail = trail.pruned isThere ∧
      (outcome.2.2 = true ↔ ∃ entry ∈ trail.entries, isThere entry.key = false) ∧
      (outcome.2.2 = true →
        (after.document, outcome.2.1) =
          document.setAndSave disk entriesName (entriesValue after.trail.entries) ∧
        after.document.bag.value? entriesName = some (entriesValue after.trail.entries)) ∧
      (outcome.2.2 = false → outcome = (history, disk, false)) ∧
      after.prune outcome.2.1 isThere = (after, outcome.2.1, false)) ∧
    left.1.history = after ∧
      Settings.favorites left.1.settings.bag =
        (Settings.favorites settings.bag).filter (fun favorite => isThere favorite.key) ∧
      (left.2.2 = true ↔ left.1.history.trail.entries ≠ trail.entries ∨
        Settings.favorites left.1.settings.bag ≠ Settings.favorites settings.bag) := by
  intro trail history outcome after left
  have coherent : trail.Coherent := Trail.coherent_run (Trail.coherent_empty limit) actions
  have direct : (after.trail, outcome.2.2) = trail.prune isThere := history.prune_trail disk isThere
  have trail' : after.trail = (trail.prune isThere).1 := congrArg Prod.fst direct
  have changed : outcome.2.2 = (trail.prune isThere).2 := congrArg Prod.snd direct
  have taken : left.1.history = after := Session.prune_history _ disk isThere
  obtain ⟨favorites, told⟩ := Session.prune_settings ⟨layout, settings, history, events⟩ disk isThere
  refine ⟨⟨direct, trail'.trans coherent.prune_eq_pruned, ?_, history.prune_changed disk isThere,
    history.prune_unchanged disk isThere, history.prune_again disk isThere _⟩, taken, favorites, ?_⟩
  · rw [changed]
    exact Trail.prune_changed_iff
  · have entries : outcome.2.2 = true ↔ left.1.history.trail.entries ≠ trail.entries := by
      rw [taken, trail', changed]
      exact Trail.withEntries_changed_iff List.filter_sublist
    exact told.trans (or_congr_left entries)

end Waymark
