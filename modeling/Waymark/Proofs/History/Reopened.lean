import Waymark.Proofs.Document.Contents
import Waymark.Proofs.History.Entries
/-!
# Reopened histories

A history shows the same entries after it was closed and opened again. Every operation that changes
the trail records it in the document, and a trail that comes from a document or was recorded in it
comes back from the document.
-/

namespace Waymark

open Entry

inductive History.Action where
  | visit (location : Location) (icon : Option String) (now : Instant)
  | back (step : Nat)
  | forward (step : Nat)
  | removeKey (key : String)
  | removeUnder (root : String)
  | prune (isThere : String → Bool)
  | removeMissing (missing : List String)
  | clear
  | setLimit (limit : Nat)
  | due (now : Nat)
  | wait (now later : Nat)

def History.Action.Valid : History.Action → Prop
  | .visit _ _ now => now.Valid
  | _ => True

structure Stage where
  history : History
  disk : Disk
  isRecorded : Bool

namespace Stage

def «open» (disk : Disk) (path : Path) (hasWriter : Bool) (limit : Nat) : Stage :=
  ⟨.ofDocument (Document.open disk path hasWriter) limit, disk, false⟩

def after (stage : Stage) (outcome : History × Disk × Bool) : Stage :=
  ⟨outcome.1, outcome.2.1, stage.isRecorded || outcome.2.2⟩

def act (stage : Stage) : History.Action → Stage
  | .visit location icon now => stage.after (stage.history.visit stage.disk location icon now)
  | .back step => { stage with history := (stage.history.back step).1 }
  | .forward step => { stage with history := (stage.history.forward step).1 }
  | .removeKey key => stage.after (stage.history.removeKey stage.disk key)
  | .removeUnder root => stage.after (stage.history.removeUnder stage.disk root)
  | .prune isThere => stage.after (stage.history.prune stage.disk isThere)
  | .removeMissing missing => stage.after (stage.history.removeMissing stage.disk missing)
  | .clear =>
      let (history, disk, count) := stage.history.clear stage.disk
      stage.after (history, disk, count ≠ 0)
  | .setLimit limit => { stage with history := stage.history.setLimit limit }
  | .due now =>
      let (document, disk) := stage.history.document.serveDue stage.disk now
      { stage with history := { stage.history with document }, disk }
  | .wait now later =>
      let (document, disk) := stage.history.document.wait stage.disk now later
      { stage with history := { stage.history with document }, disk }

def run (stage : Stage) (actions : List History.Action) : Stage :=
  actions.foldl act stage

def Recorded (stage : Stage) : Prop :=
  stage.history.document.bag.value? History.entriesName =
    some (History.entriesValue stage.history.trail.entries)

structure Untouched (start stage : Stage) : Prop where
  document : stage.history.document = start.history.document
  disk : stage.disk = start.disk
  entries : stage.history.trail.entries = start.history.trail.entries

def OthersWhole (bag : Bag) : Prop :=
  ∀ property ∈ bag.properties, property.key ≠ Text.lower History.entriesName →
    property.value.NoDoubles

structure Kept (start stage : Stage) : Prop where
  coherent : stage.history.trail.Coherent
  valid : ∀ entry ∈ stage.history.trail.entries, entry.visited.Valid
  path : stage.history.document.path = start.history.document.path
  held : stage.history.document.bag.Held
  whole : OthersWhole stage.history.document.bag
  untouched : stage.isRecorded = false → Untouched start stage
  recorded : stage.isRecorded = true → Recorded stage

variable {start stage : Stage}

theorem Kept.withTrail (kept : Kept start stage) {trail : Trail} (coherent : trail.Coherent)
    (same : trail.entries = stage.history.trail.entries) :
    Kept start { stage with history := { stage.history with trail } } where
  coherent := coherent
  valid := fun entry inside => kept.valid entry (same ▸ inside)
  path := kept.path
  held := kept.held
  whole := kept.whole
  untouched := fun nothing =>
    let before := kept.untouched nothing
    ⟨before.document, before.disk, same.trans before.entries⟩
  recorded := fun something => by
    have before := kept.recorded something
    simpa only [Recorded, same] using before

theorem Kept.record (kept : Kept start stage) {trail : Trail} (coherent : trail.Coherent)
    (valid : ∀ entry ∈ trail.entries, entry.visited.Valid) :
    Kept start (stage.after
      ((stage.history.record trail stage.disk).1, (stage.history.record trail stage.disk).2, true)) := by
  obtain ⟨bag, path⟩ := Document.setAndSave_bag stage.history.document stage.disk
    History.entriesName (History.entriesValue trail.entries)
  exact {
    coherent := coherent
    valid := valid
    path := path.trans kept.path
    held := by
      intro property inside
      rcases Bag.mem_set (bag ▸ inside) with old | ⟨-, new⟩
      · exact kept.held property old
      · exact new ▸ History.entriesValue_held trail.entries
    whole := by
      intro property inside other
      rcases Bag.mem_set (bag ▸ inside) with old | ⟨same, -⟩
      · exact kept.whole property old other
      · exact absurd same other
    untouched := by simp [after]
    recorded := fun _ => by
      have stored := @Bag.value?_set stage.history.document.bag History.entriesName _ (by decide)
        (History.entriesValue_noDoubles trail.entries)
      rw [← bag] at stored
      exact stored }

theorem Kept.commit (kept : Kept start stage) {change : Trail × Bool}
    (coherent : change.1.Coherent) (valid : ∀ entry ∈ change.1.entries, entry.visited.Valid)
    (same : change.2 = false → change.1.entries = stage.history.trail.entries) :
    Kept start (stage.after (stage.history.commit stage.disk change)) := by
  obtain ⟨trail, isChanged⟩ := change
  cases isChanged with
  | true => exact kept.record coherent valid
  | false =>
      have unrecorded := kept.withTrail coherent (same rfl)
      have flag : (stage.isRecorded || false) = stage.isRecorded := Bool.or_false _
      simpa only [after, History.commit, Bool.false_eq_true, if_false, flag] using unrecorded

theorem Kept.withEntries (kept : Kept start stage) {entries : List Entry}
    (sublist : entries.Sublist stage.history.trail.entries) :
    Kept start (stage.after
      (stage.history.commit stage.disk (stage.history.trail.withEntries entries))) := by
  refine kept.commit (kept.coherent.withEntries sublist) ?_ ?_
  · exact fun entry inside =>
      kept.valid entry ((Trail.withEntries_sublist sublist).subset inside)
  · exact fun unchanged => congrArg Trail.entries (Trail.withEntries_unchanged unchanged)

theorem Kept.after_nothing (kept : Kept start stage) :
    Kept start (stage.after (stage.history, stage.disk, false)) := by
  have flag : (stage.isRecorded || false) = stage.isRecorded := Bool.or_false _
  simpa only [after, flag] using kept

theorem Kept.removeMissing (kept : Kept start stage) (missing : List String) :
    Kept start (stage.after (stage.history.removeMissing stage.disk missing)) := by
  unfold History.removeMissing
  split
  · exact kept.after_nothing
  · exact kept.withEntries List.filter_sublist

theorem commit_flag (history : History) (disk : Disk) (change : Trail × Bool) :
    (history.commit disk change).2.2 = change.2 := by
  unfold History.commit
  split
  · exact Eq.symm ‹_›
  · exact (Bool.eq_false_iff.mpr ‹_›).symm

theorem Kept.clear (kept : Kept start stage) : Kept start (stage.act .clear) := by
  -- To clear an empty list is a change that does nothing.
  have cleared : stage.act .clear = stage.after (stage.history.commit stage.disk
      (stage.history.trail.clear.1, stage.history.trail.clear.2 ≠ 0)) := by
    simp only [act, History.clear, after, commit_flag]
    rfl
  rw [cleared]
  refine kept.commit kept.coherent.clear (fun entry inside => absurd inside List.not_mem_nil) ?_
  intro none
  have empty : stage.history.trail.entries.length = 0 := by simpa [Trail.clear] using none
  rw [List.eq_nil_of_length_eq_zero empty]
  rfl

theorem Kept.served (kept : Kept start stage) {document : Document} {disk : Disk}
    (same : Document.SameBag document stage.history.document)
    (still : stage.isRecorded = false → document = stage.history.document ∧ disk = stage.disk) :
    Kept start { stage with history := { stage.history with document }, disk } where
  coherent := kept.coherent
  valid := kept.valid
  path := same.2.trans kept.path
  held := fun property inside => kept.held property (same.1 ▸ inside)
  whole := fun property inside => kept.whole property (same.1 ▸ inside)
  untouched := by
    intro nothing
    have before := kept.untouched nothing
    obtain ⟨sameDocument, sameDisk⟩ := still nothing
    exact ⟨sameDocument.trans before.document, sameDisk.trans before.disk, before.entries⟩
  recorded := by
    intro something
    have before := kept.recorded something
    simpa only [Recorded, same.1] using before

theorem Kept.idle (kept : Kept start stage) (idle : start.history.document.IsIdle)
    (nothing : stage.isRecorded = false) : stage.history.document.IsIdle :=
  (kept.untouched nothing).document ▸ idle

theorem Kept.due (kept : Kept start stage) (idle : start.history.document.IsIdle) (now : Nat) :
    Kept start (stage.act (.due now)) := by
  refine kept.served (Document.sameBag_expire _ _ _) fun nothing => ?_
  have same := Document.expire_of_idle stage.disk (kept.idle idle nothing) (now + 1)
  exact ⟨congrArg Prod.fst same, congrArg Prod.snd same⟩

theorem Kept.wait (kept : Kept start stage) (idle : start.history.document.IsIdle)
    (now later : Nat) : Kept start (stage.act (.wait now later)) := by
  refine kept.served (Document.sameBag_wait _ _ _ _) fun nothing => ?_
  have same := Document.wait_of_idle stage.disk (kept.idle idle nothing) now later
  exact ⟨congrArg Prod.fst same, congrArg Prod.snd same⟩

theorem kept_act (kept : Kept start stage) (idle : start.history.document.IsIdle)
    {action : History.Action} (clock : action.Valid) : Kept start (stage.act action) := by
  cases action with
  | visit location icon now =>
      refine kept.commit (kept.coherent.visit location icon now) ?_ ?_
      · intro entry inside
        rcases Trail.mem_visit inside with old | new
        · exact kept.valid entry old
        · exact new ▸ clock
      · exact fun unchanged => congrArg Trail.entries (Trail.visit_unchanged unchanged)
  | back step => exact kept.withTrail (kept.coherent.back step) (Trail.back_entries _ step)
  | forward step => exact kept.withTrail (kept.coherent.forward step) (Trail.forward_entries _ step)
  | removeKey key => exact kept.withEntries List.eraseP_sublist
  | removeUnder root => exact kept.withEntries List.filter_sublist
  | prune isThere => exact kept.removeMissing _
  | removeMissing missing => exact kept.removeMissing missing
  | clear => exact kept.clear
  | setLimit limit => exact kept.withTrail (kept.coherent.setLimit limit) rfl
  | due now => exact kept.due idle now
  | wait now later => exact kept.wait idle now later

theorem kept_run (kept : Kept start stage) (idle : start.history.document.IsIdle)
    (actions : List History.Action) (clock : ∀ action ∈ actions, action.Valid) :
    Kept start (stage.run actions) := by
  induction actions generalizing stage with
  | nil => exact kept
  | cons action rest ih =>
      obtain ⟨first, others⟩ := List.forall_mem_cons.mp clock
      exact ih (kept_act kept idle first) others

theorem kept_open {disk : Disk} {path : Path} (hasWriter : Bool) (limit : Nat)
    (whole : OthersWhole (Document.load disk path)) :
    Kept («open» disk path hasWriter limit) («open» disk path hasWriter limit) where
  coherent := (Trail.coherent_empty limit).replace _
  valid := by
    intro entry inside
    obtain ⟨old, given, -, visited⟩ := Trail.mem_replace inside
    exact visited ▸ History.entriesOf_valid _ old given
  path := rfl
  held := Document.load_held disk path
  whole := whole
  untouched := fun _ => ⟨rfl, rfl, rfl⟩
  recorded := nofun

def Shows (disk : Disk) (path : Path) (entries : List Entry) : Prop :=
  ∀ hasWriter limit,
    let trail := («open» disk path hasWriter limit).history.trail
    trail.entries.map bare = entries.map bare ∧
      trail.cursor = if entries = [] then none else some 0

theorem shows_of_copies {disk : Disk} {path : Path} {entries : List Entry}
    (copies : ∀ trail : Trail,
      (trail.replace (History.entriesOf (Document.load disk path))).entries.map bare =
        entries.map bare) : Shows disk path entries := by
  intro hasWriter limit
  have shown := copies (Trail.empty limit)
  have empty : («open» disk path hasWriter limit).history.trail.entries = [] ↔ entries = [] := by
    rw [← List.map_eq_nil_iff (f := bare), ← List.map_eq_nil_iff (f := bare) (l := entries), ← shown]
    rfl
  refine ⟨shown, ?_⟩
  simp only [← empty, ← List.isEmpty_iff]
  exact Trail.replace_cursor _

theorem Kept.copies {disk : Disk} {path : Path} {hasWriter : Bool} {limit : Nat}
    (kept : Kept («open» disk path hasWriter limit) stage) (trail : Trail) :
    (trail.replace (History.entriesOf stage.history.document.bag)).entries.map bare =
      stage.history.trail.entries.map bare := by
  cases flag : stage.isRecorded with
  | false =>
      have untouched := kept.untouched flag
      rw [untouched.document, untouched.entries]
      rfl
  | true =>
      refine kept.coherent.replace_copy trail ?_
      rw [History.entriesOf_of_value? kept.valid (kept.recorded flag)]
      simp [bare, Function.comp_def]

theorem Kept.noDoubles (kept : Kept start stage) (flag : stage.isRecorded = true) :
    stage.history.document.bag.NoDoubles := by
  intro property inside
  -- What stood under the name of the entries was replaced when they were recorded.
  by_cases ours : property.key = Text.lower History.entriesName
  · obtain ⟨stored, there, key, value⟩ := Bag.value?_eq_some.mp (kept.recorded flag)
    rw [Bag.eq_of_key inside there (ours.trans key.symm), value]
    exact History.entriesValue_noDoubles _
  · exact kept.whole property inside ours

/-- After any operations the document holds a copy of the entries, and every file that the document
was written to shows them again. If nothing was recorded, the old file still shows them. -/
theorem reopened_shows_entries {disk : Disk} {path : Path} (hasWriter : Bool) (limit : Nat)
    (actions : List History.Action) (whole : OthersWhole (Document.load disk path))
    (clock : ∀ action ∈ actions, action.Valid) :
    let stage := («open» disk path hasWriter limit).run actions
    (∀ trail : Trail,
      (trail.replace (History.entriesOf stage.history.document.bag)).entries.map bare =
        stage.history.trail.entries.map bare) ∧
      (stage.isRecorded = true → ∀ before after : Disk,
        before.replace path (Document.contents stage.history.document.bag) = (after, .ok ()) →
          Shows after path stage.history.trail.entries) ∧
      (stage.isRecorded = false →
        stage.disk = disk ∧ Shows disk path stage.history.trail.entries) := by
  have idle := Document.idle_open disk path hasWriter
  have kept := kept_run (kept_open hasWriter limit whole) idle actions clock
  refine ⟨kept.copies, fun flag before after replaced => ?_, fun flag => ?_⟩
  · have loaded := Document.load_replaced kept.held (kept.noDoubles flag) replaced
    exact shows_of_copies (loaded ▸ kept.copies)
  · have untouched := kept.untouched flag
    have copies := kept.copies
    rw [untouched.document] at copies
    exact ⟨untouched.disk, shows_of_copies copies⟩

def sampleBag : Bag :=
  ((Bag.empty.set "Entries" (History.entriesValue [⟨"/home", "home", none, ⟨0, 0⟩, 0⟩])).1.set
    "width" (.integer 80)).1

def diskOf (bag : Bag) : Disk :=
  ⟨[(["h.json"], .file (Document.contents bag))], []⟩

theorem sampleBag_properties {property : Property} (inside : property ∈ sampleBag.properties) :
    property.value.Held (Json.maximumDepth - 1) ∧ property.value.NoDoubles := by
  rcases Bag.mem_set inside with old | ⟨-, number⟩
  · rcases Bag.mem_set old with none | ⟨-, entries⟩
    · cases none
    · exact entries ▸ ⟨History.entriesValue_held _, History.entriesValue_noDoubles _⟩
  · rw [number]
    exact ⟨⟨⟨by decide, by decide⟩, trivial, by decide⟩, trivial⟩

theorem load_sampleBag : Document.load (diskOf sampleBag) ⟨"/h.json"⟩ = sampleBag :=
  Document.load_of_contents? (fun _ inside => (sampleBag_properties inside).1)
    (fun _ inside => (sampleBag_properties inside).2) rfl

theorem visit_shown_again :
    let stage := («open» (diskOf sampleBag) ⟨"/h.json"⟩ true 10).run
      [.visit (.named "/tmp" "tmp") none ⟨1700000000, 0⟩, .back 1, .wait 0 1000]
    stage.isRecorded = true ∧
      Shows (diskOf stage.history.document.bag) ⟨"/h.json"⟩ stage.history.trail.entries := by
  intro stage
  have whole : OthersWhole (Document.load (diskOf sampleBag) ⟨"/h.json"⟩) := by
    rw [load_sampleBag]
    exact fun _ inside _ => (sampleBag_properties inside).2
  have clock : ∀ action ∈ ([.visit (.named "/tmp" "tmp") none ⟨1700000000, 0⟩, .back 1,
      .wait 0 1000] : List History.Action), action.Valid := by
    simp only [List.forall_mem_cons]
    exact ⟨(by decide : Instant.Valid ⟨1700000000, 0⟩), trivial, trivial, nofun⟩
  have flag : stage.isRecorded = true := rfl
  have written : (diskOf sampleBag).replace ⟨"/h.json"⟩ (Document.contents stage.history.document.bag) =
      (diskOf stage.history.document.bag, .ok ()) := rfl
  exact ⟨flag, (reopened_shows_entries true 10 _ whole clock).2.1 flag _ _ written⟩

end Stage
end Waymark
