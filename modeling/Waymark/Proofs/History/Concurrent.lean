import Waymark.Proofs.History.Reopened
import Waymark.Proofs.Trail.Icons
/-!
# Calls under way

A visit and a removal of missing locations have two parts, and between the parts of one call all
others may run. The first part of a visit only asks whether it has a use for an icon, so by the time
the visit is recorded its answer may be out of date. Whatever the order of the parts, the trail stays
coherent, the document keeps a copy of it, and no icon is replaced by another. `effect_act` says what
a single step can do, and all else follows from that.
-/

namespace Waymark

open Entry

namespace Stage

inductive Effect (stage : Stage) : Stage → Prop where
  | visit (location : Location) (icon : Option String) (now : Instant) :
      Effect stage (stage.after (stage.history.visit stage.disk location icon now))
  | remove {kept : List Entry} (sublist : kept.Sublist stage.history.trail.entries) :
      Effect stage
        (stage.after (stage.history.commit stage.disk (stage.history.trail.withEntries kept)))
  | move {trail : Trail} (coherent : trail.Coherent)
      (same : trail.entries = stage.history.trail.entries) :
      Effect stage { stage with history := { stage.history with trail } }
  | write {document : Document} (disk : Disk) (same : document.bag = stage.history.document.bag) :
      Effect stage { stage with history := { stage.history with document }, disk }

variable {stage next : Stage}

theorem after_nothing (stage : Stage) : stage.after (stage.history, stage.disk, false) = stage := by
  simp [after]

theorem effect_nothing (stage : Stage) : Effect stage stage :=
  .write stage.disk rfl

theorem effect_removeMissing (stage : Stage) (missing : List String) :
    Effect stage (stage.after (stage.history.removeMissing stage.disk missing)) := by
  unfold History.removeMissing
  split
  · rw [after_nothing]
    exact effect_nothing stage
  · exact .remove List.filter_sublist

theorem effect_clear (coherent : stage.history.trail.Coherent) : Effect stage (stage.act .clear) := by
  have cleared : stage.act .clear = stage.after
      (stage.history.commit stage.disk (stage.history.trail.withEntries [])) := by
    obtain ⟨⟨⟨entries, cursor, limit, nextSequence⟩, document⟩, disk, isRecorded⟩ := stage
    cases entries with
    | nil =>
        -- A coherent trail without entries has no cursor to take away.
        have none : cursor = none := coherent.cursor_none.mpr rfl
        subst none
        rfl
    | cons first rest => rfl
  rw [cleared]
  exact .remove (List.nil_sublist _)

theorem effect_act (coherent : stage.history.trail.Coherent) (action : History.Action) :
    Effect stage (stage.act action) := by
  cases action with
  | visit location icon now => exact .visit location icon now
  | back step => exact .move (coherent.back step) (Trail.back_entries _ step)
  | forward step => exact .move (coherent.forward step) (Trail.forward_entries _ step)
  | removeKey key => exact .remove List.eraseP_sublist
  | removeUnder root => exact .remove List.filter_sublist
  | prune isThere => exact effect_removeMissing stage _
  | removeMissing missing => exact effect_removeMissing stage missing
  | clear => exact effect_clear coherent
  | setLimit limit => exact .move (coherent.setLimit limit) rfl
  | due now =>
      exact .write _ (Document.sameBag_expire stage.history.document stage.disk (now + 1)).1
  | wait now later =>
      exact .write _ (Document.sameBag_wait stage.history.document stage.disk now later).1

def Copied (stage : Stage) : Prop :=
  (∀ entry ∈ stage.history.trail.entries, entry.visited.Valid) → ∀ other : Trail,
    (other.replace (History.entriesOf stage.history.document.bag)).entries.map bare =
      stage.history.trail.entries.map bare

structure Matched (stage : Stage) : Prop where
  coherent : stage.history.trail.Coherent
  copied : Copied stage
  recorded : stage.isRecorded = true → Recorded stage

theorem matched_open (disk : Disk) (path : Path) (hasWriter : Bool) (limit : Nat) :
    Matched («open» disk path hasWriter limit) where
  coherent := (Trail.coherent_empty limit).replace _
  copied := fun _ _ => rfl
  recorded := nofun

theorem Matched.commit (matched : Matched stage) {change : Trail × Bool}
    (coherent : change.1.Coherent) (same : change.2 = false → change.1 = stage.history.trail) :
    Matched (stage.after (stage.history.commit stage.disk change)) := by
  obtain ⟨trail, isChanged⟩ := change
  cases isChanged with
  | false =>
      have trail : trail = stage.history.trail := same rfl
      subst trail
      exact (after_nothing stage).symm ▸ matched
  | true =>
      obtain ⟨bag, -⟩ := Document.setAndSave_bag stage.history.document stage.disk
        History.entriesName (History.entriesValue trail.entries)
      have stored := @Bag.value?_set stage.history.document.bag History.entriesName _ (by decide)
        (History.entriesValue_noDoubles trail.entries)
      rw [← bag] at stored
      exact {
        coherent := coherent
        copied := by
          intro valid other
          have copy := @History.entriesOf_of_value? _ trail.entries valid stored
          exact coherent.replace_copy other
            ((congrArg _ copy).trans (by simp [bare, Function.comp_def]))
        recorded := fun _ => stored }

theorem Matched.effect (matched : Matched stage) (effect : Effect stage next) : Matched next := by
  cases effect with
  | visit location icon now =>
      exact matched.commit (matched.coherent.visit location icon now) Trail.visit_unchanged
  | remove sublist =>
      exact matched.commit (matched.coherent.withEntries sublist) Trail.withEntries_unchanged
  | move coherent same =>
      exact {
        coherent := coherent
        copied := by simpa only [Copied, same] using matched.copied
        recorded := by simpa only [Recorded, same] using matched.recorded }
  | write disk same =>
      exact {
        coherent := matched.coherent
        copied := by simpa only [Copied, same] using matched.copied
        recorded := by simpa only [Recorded, same] using matched.recorded }

theorem matched_run (matched : Matched stage) (actions : List History.Action) :
    Matched (stage.run actions) := by
  induction actions generalizing stage with
  | nil => exact matched
  | cons action rest ih => exact ih (matched.effect (effect_act matched.coherent action))

theorem trail_commit (history : History) (disk : Disk) (change : Trail × Bool) :
    (history.commit disk change).1.trail = change.1 := by
  unfold History.commit
  split <;> rfl

theorem keepsIcons_effect (matched : Matched stage) (effect : Effect stage next) :
    KeepsIcons stage.history.trail.entries next.history.trail.entries := by
  cases effect with
  | visit location icon now =>
      simp only [after, History.visit, trail_commit]
      exact matched.coherent.keepsIcons_visit location icon now
  | remove sublist =>
      simp only [after, trail_commit]
      exact keepsIcons_of_subset matched.coherent.keysDiffer
        (Trail.withEntries_sublist sublist).subset
  | move _ same =>
      exact keepsIcons_of_subset matched.coherent.keysDiffer (by simp [same])
  | write _ _ => exact keepsIcons_of_subset matched.coherent.keysDiffer (List.Subset.refl _)

end Stage

/-- A visit that was asked for. It is under way as long as it has no answer. -/
structure Visiting where
  location : Location
  awaitsIcon : Bool
  answer : Option Bool
  deriving DecidableEq

/-- A stage with calls under way: the visits in the order in which they were asked for, and the keys
that were found missing and are still to be removed. -/
structure Traffic where
  stage : Stage
  visits : List Visiting
  found : List (List String)

namespace Traffic

inductive Action where
  | ask (location : Location)
  | record (place : Nat) (icon : Option String) (now : Instant)
  | look (isThere : String → Bool)
  | removeFound (place : Nat)
  | whole (action : History.Action)

def ofStage (stage : Stage) : Traffic :=
  ⟨stage, [], []⟩

def trail (traffic : Traffic) : Trail :=
  traffic.stage.history.trail

def ask (traffic : Traffic) (location : Location) : Traffic :=
  let answer := if location.isRecordable then none else some false
  { traffic with
    visits := traffic.visits ++
      [⟨location, traffic.stage.history.awaitsIcon location, answer⟩] }

def record (traffic : Traffic) (place : Nat) (icon : Option String) (now : Instant) : Traffic :=
  match traffic.visits[place]? with
  | some ⟨location, awaitsIcon, none⟩ =>
      let outcome := traffic.stage.history.visit traffic.stage.disk location
        (if awaitsIcon then icon else none) now
      { traffic with
        stage := traffic.stage.after outcome
        visits := traffic.visits.set place ⟨location, awaitsIcon, some outcome.2.2⟩ }
  | _ => traffic

def removeFound (traffic : Traffic) (place : Nat) : Traffic :=
  match traffic.found[place]? with
  | some missing =>
      { traffic with
        stage := traffic.stage.after (traffic.stage.history.removeMissing traffic.stage.disk missing)
        found := traffic.found.eraseIdx place }
  | none => traffic

def act (traffic : Traffic) : Action → Traffic
  | .ask location => traffic.ask location
  | .record place icon now => traffic.record place icon now
  | .look isThere =>
      { traffic with found := traffic.found ++ [traffic.stage.history.missing isThere] }
  | .removeFound place => traffic.removeFound place
  | .whole action => { traffic with stage := traffic.stage.act action }

def run (traffic : Traffic) (actions : List Action) : Traffic :=
  actions.foldl act traffic

variable {traffic : Traffic}

theorem effect_act (matched : traffic.stage.Matched) (action : Action) :
    traffic.stage.Effect (traffic.act action).stage := by
  cases action with
  | ask location => exact Stage.effect_nothing _
  | record place icon now =>
      change traffic.stage.Effect (traffic.record place icon now).stage
      unfold record
      split
      · exact .visit _ _ now
      · exact Stage.effect_nothing _
  | look isThere => exact Stage.effect_nothing _
  | removeFound place =>
      change traffic.stage.Effect (traffic.removeFound place).stage
      unfold removeFound
      split
      · exact Stage.effect_removeMissing _ _
      · exact Stage.effect_nothing _
  | whole action => exact Stage.effect_act matched.coherent action

theorem matched_run (matched : traffic.stage.Matched) (actions : List Action) :
    (traffic.run actions).stage.Matched := by
  induction actions generalizing traffic with
  | nil => exact matched
  | cons action rest ih => exact ih (matched.effect (effect_act matched action))

def Stays (traffic : Traffic) (key : String) (actions : List Action) : Prop :=
  ∀ early, early <+: actions → ∃ entry ∈ (traffic.run early).trail.entries, Key.same entry.key key

theorem keepsIcon_run (matched : traffic.stage.Matched) {old : Entry}
    (inside : old ∈ traffic.trail.entries) (actions : List Action)
    (stays : traffic.Stays old.key actions) :
    ∀ entry ∈ (traffic.run actions).trail.entries, Key.same entry.key old.key →
      entry.key = old.key ∧ ∀ icon, old.icon = some icon → entry.icon = some icon := by
  induction actions generalizing traffic old with
  | nil =>
      exact keepsIcons_of_subset matched.coherent.keysDiffer (List.Subset.refl _) old inside
  | cons action rest ih =>
      have effect := effect_act matched action
      obtain ⟨between, there, same⟩ := stays [action] (List.prefix_append [action] rest)
      obtain ⟨key, icons⟩ := Stage.keepsIcons_effect matched effect old inside between there same
      intro entry final alike
      have later := ih (matched.effect effect) there
        (fun early start => key ▸ stays (action :: early) (List.cons_prefix_cons.mpr ⟨rfl, start⟩))
        entry final (key ▸ alike)
      exact ⟨later.1.trans key, fun icon had => later.2 icon (icons icon had)⟩

def given (awaitsIcon : Bool) (icon : Option String) : Option String :=
  if awaitsIcon then icon else none

theorem record_of_underWay {place : Nat} {location : Location} {awaitsIcon : Bool}
    (underWay : traffic.visits[place]? = some ⟨location, awaitsIcon, none⟩) (icon : Option String)
    (now : Instant) :
    (traffic.record place icon now).trail =
        (traffic.trail.visit location (given awaitsIcon icon) now).1 ∧
      (traffic.record place icon now).visits = traffic.visits.set place
        ⟨location, awaitsIcon,
          some (traffic.trail.visit location (given awaitsIcon icon) now).2⟩ := by
  unfold record
  rw [underWay]
  refine ⟨Stage.trail_commit _ _ _, ?_⟩
  simp only [History.visit, Stage.commit_flag]
  rfl

def Recordable (traffic : Traffic) : Prop :=
  ∀ visiting ∈ traffic.visits, visiting.answer = none → visiting.location.isRecordable = true

theorem recordable_act (recordable : traffic.Recordable) (action : Action) :
    (traffic.act action).Recordable := by
  cases action with
  | ask location =>
      intro visiting inside underWay
      rcases List.mem_append.mp inside with old | new
      · exact recordable visiting old underWay
      · rw [List.mem_singleton.mp new] at underWay ⊢
        cases able : location.isRecordable with
        | true => rfl
        | false => simp [able] at underWay
  | record place icon now =>
      change (traffic.record place icon now).Recordable
      unfold record
      split
      · intro visiting inside underWay
        rcases List.mem_or_eq_of_mem_set inside with old | new
        · exact recordable visiting old underWay
        · rw [new] at underWay
          cases underWay
      · exact recordable
  | look isThere => exact recordable
  | removeFound place =>
      change (traffic.removeFound place).Recordable
      unfold removeFound
      split <;> exact recordable
  | whole action => exact recordable

theorem recordable_run (recordable : traffic.Recordable) (actions : List Action) :
    (traffic.run actions).Recordable := by
  induction actions generalizing traffic with
  | nil => exact recordable
  | cons action rest ih => exact ih (recordable_act recordable action)

theorem mem_record (matched : traffic.stage.Matched) (recordable : traffic.Recordable) {place : Nat}
    {location : Location} {awaitsIcon : Bool}
    (underWay : traffic.visits[place]? = some ⟨location, awaitsIcon, none⟩) (icon : Option String)
    {now : Instant} (latest : ∀ entry ∈ traffic.trail.entries, ¬now < entry.visited) :
    ∃ entry ∈ (traffic.record place icon now).trail.entries,
      Key.same entry.key location.key = true ∧ entry.visited = now := by
  have able := recordable _ (List.mem_of_getElem? underWay) rfl
  have coherent : traffic.trail.Coherent := matched.coherent
  have least := coherent.least_limit
  obtain ⟨more, room⟩ : ∃ more, traffic.trail.limit = more + 1 :=
    Nat.exists_eq_succ_of_ne_zero (by omega)
  refine ⟨traffic.trail.recordedVisit location (given awaitsIcon icon) now, ?_,
    Trail.recordedVisit_key location _ now, Trail.recordedVisit_visited location _ now⟩
  rw [(record_of_underWay underWay icon now).1,
    coherent.visit_entries_of_latest able _ latest, room]
  exact List.mem_cons_self

/-- Whatever the calls under way, after every step the trail is coherent and the document has a copy
of it; a visit that is recorded at a time that is not behind the trail has its entry there; and an
entry keeps its icon as long as it stays. -/
theorem concurrent_visits (disk : Disk) (path : Path) (hasWriter : Bool) (limit : Nat)
    (actions : List Action) :
    let traffic := (ofStage (.open disk path hasWriter limit)).run actions
    traffic.trail.Coherent ∧ traffic.stage.Copied ∧
      (traffic.stage.isRecorded = true → traffic.stage.Recorded) ∧
      (∀ place location awaitsIcon icon now,
        traffic.visits[place]? = some ⟨location, awaitsIcon, none⟩ →
          (∀ entry ∈ traffic.trail.entries, ¬now < entry.visited) →
            ∃ entry ∈ (traffic.act (.record place icon now)).trail.entries,
              Key.same entry.key location.key = true ∧ entry.visited = now) ∧
      (∀ old ∈ traffic.trail.entries, ∀ icon, old.icon = some icon →
        ∀ more : List Action, traffic.Stays old.key more →
          ∀ entry ∈ (traffic.run more).trail.entries, Key.same entry.key old.key = true →
            entry.icon = some icon) := by
  intro traffic
  have matched : traffic.stage.Matched :=
    matched_run (Stage.matched_open disk path hasWriter limit) actions
  have recordable : traffic.Recordable :=
    recordable_run (fun _ inside => absurd inside List.not_mem_nil) actions
  refine ⟨matched.coherent, matched.copied, matched.recorded, ?_, ?_⟩
  · exact fun place location awaitsIcon icon now underWay latest =>
      mem_record matched recordable underWay icon latest
  · exact fun old inside icon had more stays entry there same =>
      (keepsIcon_run matched inside more stays entry there same).2 icon had

def twoAsked : List Action :=
  [.ask (.named "/tmp" "tmp"), .ask (.named "/TMP" "TMP"), .record 0 (some "folder") ⟨1700000000, 0⟩]

def secondRecorded : List Action :=
  [.record 1 (some "drive") ⟨1700000001, 0⟩]

def askedTraffic : Traffic :=
  (ofStage (.open ⟨[], []⟩ ⟨"/h.json"⟩ true 10)).run twoAsked

def firstEntry : Entry :=
  ⟨"/tmp", "tmp", some "folder", ⟨1700000000, 0⟩, 1⟩

theorem entries_askedTraffic : askedTraffic.trail.entries = [firstEntry] := by
  decide +kernel

theorem entries_secondRecorded : (askedTraffic.run secondRecorded).trail.entries =
    [⟨"/tmp", "TMP", some "folder", ⟨1700000001, 0⟩, 2⟩] := by
  decide +kernel

theorem firstIcon_stays :
    (∀ entry ∈ askedTraffic.trail.entries, entry.visited.Valid) ∧
      askedTraffic.stage.isRecorded = true ∧
      askedTraffic.visits[1]? = some ⟨.named "/TMP" "TMP", true, none⟩ ∧
      (∀ entry ∈ askedTraffic.trail.entries, ¬(⟨1700000001, 0⟩ : Instant) < entry.visited) ∧
      firstEntry ∈ askedTraffic.trail.entries ∧ askedTraffic.Stays firstEntry.key secondRecorded ∧
      ((Trail.empty 10).replace
        (History.entriesOf askedTraffic.stage.history.document.bag)).entries.map bare =
          [firstEntry.bare] ∧
      askedTraffic.stage.Recorded ∧
      (∃ entry ∈ (askedTraffic.run secondRecorded).trail.entries,
        Key.same entry.key "/TMP" = true ∧ entry.visited = ⟨1700000001, 0⟩) ∧
      ∀ entry ∈ (askedTraffic.run secondRecorded).trail.entries, Key.same entry.key "/tmp" = true →
        entry.icon = some "folder" := by
  have valid : ∀ entry ∈ askedTraffic.trail.entries, entry.visited.Valid := by
    rw [entries_askedTraffic]
    decide
  have flag : askedTraffic.stage.isRecorded = true := by decide +kernel
  have underWay : askedTraffic.visits[1]? = some ⟨.named "/TMP" "TMP", true, none⟩ := by
    decide +kernel
  have latest : ∀ entry ∈ askedTraffic.trail.entries,
      ¬(⟨1700000001, 0⟩ : Instant) < entry.visited := by
    rw [entries_askedTraffic]
    decide
  have inside : firstEntry ∈ askedTraffic.trail.entries := by
    rw [entries_askedTraffic]
    exact List.mem_cons_self
  have stays : askedTraffic.Stays firstEntry.key secondRecorded := by
    intro early start
    rcases List.prefix_cons_iff.mp start with rfl | ⟨rest, rfl, none⟩
    · exact ⟨firstEntry, inside, by decide⟩
    · rw [List.prefix_nil.mp none]
      change ∃ entry ∈ (askedTraffic.run secondRecorded).trail.entries, _
      rw [entries_secondRecorded]
      exact ⟨_, List.mem_cons_self, by decide⟩
  obtain ⟨-, copied, recorded, present, icons⟩ :=
    concurrent_visits ⟨[], []⟩ ⟨"/h.json"⟩ true 10 twoAsked
  exact ⟨valid, flag, underWay, latest, inside, stays,
    (copied valid (.empty 10)).trans (congrArg _ entries_askedTraffic), recorded flag,
    present 1 _ true (some "drive") ⟨1700000001, 0⟩ underWay latest,
    icons firstEntry inside "folder" rfl secondRecorded stays⟩

end Traffic
end Waymark
