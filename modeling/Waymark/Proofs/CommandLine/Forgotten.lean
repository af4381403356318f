import Waymark.CommandLine.Run
import Waymark.Proofs.Session.Opened
import Waymark.Proofs.Trail.Under
import Waymark.Proofs.Trail.Visited
/-!
# What is forgotten

A visit records where a path leads, and what is to be forgotten is taken as it is written. A location
that was visited is forgotten under the same path only if the path is written like its key.
-/

namespace Waymark

def Disk.Takes (disk : Disk) (path : Path) : Prop :=
  ∀ contents, (disk.replace path contents).2 = .ok ()

theorem Key.isAtOrUnder_congr {a b : String} (same : Key.same a b = true) (root : String) :
    Key.isAtOrUnder a root = Key.isAtOrUnder b root := by
  have equal := (Text.sameButCase_iff a b).mp same
  rw [isAtOrUnder, isAtOrUnder, Key.same_congr same, equal]

namespace CommandLine

variable {session after : Session} {layout : Layout} {disk : Disk} {trail : Trail} {key : String}

def historyOn (disk : Disk) (layout : Layout) : History :=
  (Session.open ⟨disk, ⟨0⟩, ⟨0, 0⟩⟩ layout).1.history

def Lists (disk : Disk) (layout : Layout) (key : String) : Prop :=
  ∃ entry ∈ (historyOn disk layout).trail.entries, Key.same entry.key key = true

theorem lists_of_bare {entries : List Entry}
    (same : (historyOn disk layout).trail.entries.map Entry.bare = entries.map Entry.bare) :
    Lists disk layout key ↔ ∃ entry ∈ entries, Key.same entry.key key = true := by
  have bare (list : List Entry) : (∃ entry ∈ list, Key.same entry.key key = true) ↔
      ∃ entry ∈ list.map Entry.bare, Key.same entry.key key = true := by
    simp [Entry.bare]
  rw [Lists, bare, same, ← bare]

theorem historyOn_entries (disk : Disk) (layout : Layout) (other : Trail) :
    (historyOn disk layout).trail.entries =
      (other.replace (History.entriesOf (Document.load disk layout.history))).entries := by
  unfold historyOn Session.open History.ofDocument Document.open Document.ofBag
  dsimp only [Trail.replace]

theorem lists_congr {other : Disk}
    (same : other.contents? layout.history = disk.contents? layout.history) :
    Lists other layout key ↔ Lists disk layout key := by
  have load : Document.load other layout.history = Document.load disk layout.history := by
    rw [Document.load, Document.load, Document.read, Document.read, same]
  rw [Lists, Lists, historyOn_entries other layout (Trail.empty 0),
    historyOn_entries disk layout (Trail.empty 0), load]

theorem finish_recorded (opened : session.Opened layout) (coherent : trail.Coherent)
    (valid : ∀ entry ∈ trail.entries, entry.visited.Valid)
    (settings : after.settings = session.settings)
    (recorded : after.history = (session.history.record trail disk).1)
    (takes : disk.Takes layout.history) (lines : List String) :
    ∃ bag, (finish after (session.history.record trail disk).2 lines).disk =
        (disk.replace layout.history (Document.contents bag)).1 ∧
      ∀ key, Lists (disk.replace layout.history (Document.contents bag)).1 layout key ↔
        ∃ entry ∈ trail.entries, Key.same entry.key key = true := by
  obtain ⟨document, done, pending, asked, path, bag⟩ :=
    History.record_of_idle opened.historyIdle trail disk
  have held : document.bag.Held := by
    rw [bag]
    exact opened.held.set _ (History.entriesValue_held trail.entries)
  have stored : document.bag.value? History.entriesName =
      some (History.entriesValue trail.entries) := by
    rw [bag]
    exact Bag.value?_set (by decide) (History.entriesValue_noDoubles trail.entries)
  rw [done] at recorded
  have asked : after.history.document.writer = some ⟨[Document.soon].map .schedule, none⟩ := by
    rw [recorded]
    exact asked
  have closed : (finish after (session.history.record trail disk).2 lines).disk =
      (disk.replace layout.history (Document.contents document.bag)).1 := by
    rw [finish, Session.disk_shutDown (settings ▸ opened.settingsSaved)
      (settings ▸ opened.settingsIdle) asked, recorded, done,
      Document.disk_writePending_of_pending _ pending, path, opened.path]
  have written := Disk.contents?_replace (Prod.ext rfl (takes (Document.contents document.bag)))
  exact ⟨document.bag, closed, fun key => lists_of_bare
    (History.entries_of_written coherent valid held stored written _)⟩

theorem finish_unrecorded (opened : session.Opened layout)
    (settings : after.settings = session.settings)
    (unrecorded : after.history.document = session.history.document) (disk : Disk)
    (lines : List String) : (finish after disk lines).disk = disk := by
  have asked : after.history.document.writer = some ⟨[].map .schedule, none⟩ := by
    rw [unrecorded]
    exact opened.historyIdle
  have clean : after.history.document.isPending = false := by
    rw [unrecorded]
    exact opened.historySaved
  rw [finish, Session.disk_shutDown (settings ▸ opened.settingsSaved)
    (settings ▸ opened.settingsIdle) asked, Document.writePending_clean _ clean]

theorem finish_changed (opened : session.Opened layout) {change : Trail × Bool}
    (coherent : change.1.Coherent) (valid : ∀ entry ∈ change.1.entries, entry.visited.Valid)
    (changed : change.2 = true) (takes : disk.Takes layout.history) (event : Event)
    (lines : List String) :
    let outcome := session.history.commit disk change
    let next : Session := { session with history := outcome.1 }
    ∃ bag, (finish (next.emitIf outcome.2.2 event) outcome.2.1 lines).disk =
        (disk.replace layout.history (Document.contents bag)).1 ∧
      ∀ key, Lists (disk.replace layout.history (Document.contents bag)).1 layout key ↔
        ∃ entry ∈ change.1.entries, Key.same entry.key key = true := by
  intro outcome next
  have committed : outcome = _ := History.commit_changed changed disk
  have recorded : (next.emitIf outcome.2.2 event).history =
      (session.history.record change.1 disk).1 := by
    rw [Session.emitIf_history, ← congrArg Prod.fst committed]
  rw [congrArg (·.2.1) committed]
  exact finish_recorded opened coherent valid (next.emitIf_settings _ event) recorded takes lines

theorem finish_unchanged (opened : session.Opened layout) {change : Trail × Bool}
    (unchanged : change.2 = false) (disk : Disk) (event : Event) (lines : List String) :
    let outcome := session.history.commit disk change
    let next : Session := { session with history := outcome.1 }
    (finish (next.emitIf outcome.2.2 event) outcome.2.1 lines).disk = disk := by
  intro outcome next
  have committed : outcome = _ := History.commit_unchanged unchanged disk
  rw [congrArg (·.2.1) committed]
  refine finish_unrecorded opened (next.emitIf_settings _ event) ?_ disk lines
  rw [Session.emitIf_history, show next.history = outcome.1 from rfl, committed]

def visitTo (session : Session) (surface : Surface) (location : Location) : Report :=
  let icon := if session.history.awaitsIcon location
    then Icon.find? surface.disk location.key else none
  let (session, disk, visited) := session.visit surface.disk location icon surface.now
  finish session disk (if visited then [] else ["Nothing recorded for " ++ location.key])

theorem perform_visit (session : Session) (surface : Surface) (path : Path) (name : Option String) :
    perform session surface (.visit path name) =
      visitTo session surface
        { locationOf surface.disk path with
          name := name.getD (locationOf surface.disk path).name } := by
  simp only [perform, visitTo]

theorem visited_iff (coherent : trail.Coherent) {location : Location}
    (recordable : location.isRecordable = true) (icon : Option String) (now : Instant) :
    (∃ entry ∈ (trail.visit location icon now).1.entries, Key.same entry.key location.key = true) ↔
      (trail.laterOthers location.key now).length < trail.limit := by
  rw [coherent.visit_entries recordable]
  constructor
  · rintro ⟨entry, inside, same⟩
    by_contra full
    rw [List.take_append_of_le_length (Nat.not_lt.mp full)] at inside
    have other := (List.mem_filter.mp (List.mem_of_mem_take inside)).1
    simp [Trail.others, same] at other
  · intro room
    refine ⟨trail.recordedVisit location icon now, ?_, Trail.recordedVisit_key location icon now⟩
    obtain ⟨more, rest⟩ := Nat.exists_eq_add_of_lt room
    have left : trail.limit - (trail.laterOthers location.key now).length = more + 1 := by omega
    rw [List.take_append, left, List.take_succ_cons]
    exact List.mem_append_right _ List.mem_cons_self

theorem lists_visit (opened : session.Opened layout) {surface : Surface} (clock : surface.now.Valid)
    {location : Location} (recordable : location.isRecordable = true)
    (takes : surface.disk.Takes layout.history) :
    ∃ bag, (visitTo session surface location).disk =
        (surface.disk.replace layout.history (Document.contents bag)).1 ∧
      (Lists (surface.disk.replace layout.history (Document.contents bag)).1 layout location.key ↔
        (session.history.trail.laterOthers location.key surface.now).length <
          session.history.trail.limit) := by
  unfold visitTo
  dsimp only
  generalize (if session.history.awaitsIcon location
    then Icon.find? surface.disk location.key else none) = icon
  have changed : (session.history.trail.visit location icon surface.now).2 = true := by
    rw [Trail.visit_of_recordable recordable]
  have coherent := opened.coherent.visit location icon surface.now
  have valid : ∀ entry ∈ (session.history.trail.visit location icon surface.now).1.entries,
      entry.visited.Valid := by
    intro entry inside
    rcases Trail.mem_visit inside with old | new
    · exact opened.valid entry old
    · exact new ▸ clock
  obtain ⟨bag, closed, lists⟩ := finish_changed opened coherent valid changed takes .history _
  refine ⟨bag, closed, (lists location.key).trans ?_⟩
  exact visited_iff opened.coherent recordable icon surface.now

theorem removed_iff (trail : Trail) (root key : String) :
    (∃ entry ∈ (trail.removeUnder root).1.entries, Key.same entry.key key = true) ↔
      (∃ entry ∈ trail.entries, Key.same entry.key key = true) ∧
        Key.isAtOrUnder key root = false := by
  rw [Trail.removeUnder_entries]
  simp only [List.mem_filter, Bool.not_eq_true']
  constructor
  · rintro ⟨entry, ⟨inside, apart⟩, same⟩
    exact ⟨⟨entry, inside, same⟩, Key.isAtOrUnder_congr same root ▸ apart⟩
  · rintro ⟨⟨entry, inside, same⟩, apart⟩
    exact ⟨entry, ⟨inside, Key.isAtOrUnder_congr same root ▸ apart⟩, same⟩

theorem perform_forget (session : Session) (surface : Surface) (root : String) :
    let outcome := session.history.commit surface.disk (session.history.trail.removeUnder root)
    ∃ lines, perform session surface (.forget root) =
      finish ({ session with history := outcome.1 }.emitIf outcome.2.2 .history) outcome.2.1 lines :=
  ⟨_, rfl⟩

theorem lists_forget (distinct : disk.Distinct) {contents : ByteArray}
    (there : disk.contents? layout.history = .ok (some contents)) (later : Instant)
    (takes : (Session.open ⟨disk, ⟨0⟩, later⟩ layout).2.disk.Takes layout.history)
    (root key : String) :
    Lists (run disk later layout (.forget root)).disk layout key ↔
      Lists disk layout key ∧ Key.isAtOrUnder key root = false := by
  have opened := Session.opened_open ⟨disk, ⟨0⟩, later⟩ layout
  have stays := @Session.contents?_open layout ⟨disk, ⟨0⟩, later⟩ distinct _ there
  have listed (key : String) : Lists disk layout key ↔
      ∃ entry ∈ (Session.open ⟨disk, ⟨0⟩, later⟩ layout).1.history.trail.entries,
        Key.same entry.key key = true := Iff.rfl
  rw [listed, run]
  generalize Session.open ⟨disk, ⟨0⟩, later⟩ layout = start at *
  obtain ⟨session, surface⟩ := start
  obtain ⟨lines, performed⟩ := perform_forget session surface root
  have removed := removed_iff session.history.trail root key
  have coherent : (session.history.trail.removeUnder root).1.Coherent :=
    opened.coherent.withEntries List.filter_sublist
  have valid : ∀ entry ∈ (session.history.trail.removeUnder root).1.entries,
      entry.visited.Valid := fun entry inside =>
    opened.valid entry ((Trail.withEntries_sublist List.filter_sublist).subset inside)
  dsimp only
  rw [performed, ← removed]
  cases changed : (session.history.trail.removeUnder root).2 with
  | true =>
      obtain ⟨bag, closed, lists⟩ := finish_changed opened coherent valid changed takes .history lines
      rw [closed]
      exact lists key
  | false =>
      have same : (session.history.trail.removeUnder root).1 = session.history.trail :=
        Trail.withEntries_unchanged changed
      rw [finish_unchanged opened changed, same, ← listed]
      exact lists_congr (stays.trans there.symm)

/-- A location is listed after it was visited, unless too many others are later. It is not listed any
more after something was forgotten if and only if its key is at or under what was written, however
the path was written that led to it. -/
theorem listed_unless_under {disk : Disk} (distinct : disk.Distinct) {layout : Layout}
    {location : Location} (recordable : location.isRecordable = true) {now : Instant}
    (clock : now.Valid) (later : Instant) (root : String) :
    let opened := Session.open ⟨disk, ⟨0⟩, now⟩ layout
    let visited := visitTo opened.1 opened.2 location
    let reopened := Session.open ⟨visited.disk, ⟨0⟩, later⟩ layout
    let forgotten := run visited.disk later layout (.forget root)
    opened.2.disk.Takes layout.history → reopened.2.disk.Takes layout.history →
      (Lists visited.disk layout location.key ↔
        ((historyOn disk layout).trail.laterOthers location.key now).length <
          (historyOn disk layout).trail.limit) ∧
      (Lists forgotten.disk layout location.key ↔ Lists visited.disk layout location.key ∧
        Key.isAtOrUnder location.key root = false) ∧
      ∀ path name, location = { locationOf opened.2.disk path with
          name := name.getD (locationOf opened.2.disk path).name } →
        run disk now layout (.visit path name) = visited := by
  intro opened visited reopened forgotten takes takesLater
  have fresh : opened.1.Opened layout := Session.opened_open ⟨disk, ⟨0⟩, now⟩ layout
  have same : opened.2.now = now := (Session.open_eq ⟨disk, ⟨0⟩, now⟩ layout).1
  obtain ⟨bag, closed, lists⟩ := lists_visit fresh (same ▸ clock) recordable takes
  have closed : visited.disk = _ := closed
  have distinct : visited.disk.Distinct := by
    rw [closed]
    exact (@Session.distinct_open ⟨disk, ⟨0⟩, now⟩ distinct layout).replace _ _
  have there : visited.disk.contents? layout.history = .ok (some (Document.contents bag)) := by
    rw [closed]
    exact Disk.contents?_replace (Prod.ext rfl (takes _))
  refine ⟨?_, lists_forget distinct there later takesLater root location.key, ?_⟩
  · rw [closed]
    exact lists
  · rintro path name rfl
    exact perform_visit opened.1 opened.2 path name

def quietBag : Bag :=
  (Bag.empty.set "backupsMaxDays" (.integer (-1))).1

def quietDisk : Disk :=
  ⟨[(["d"], .directory), (["globalSettings.json"], .file (Document.contents quietBag))], []⟩

theorem load_quietBag {disk : Disk}
    (there : disk.contents? ⟨"/globalSettings.json"⟩ = .ok (some (Document.contents quietBag))) :
    Document.load disk ⟨"/globalSettings.json"⟩ = quietBag := by
  have held : quietBag.Held :=
    Bag.held_empty.set _ ⟨⟨by decide, by decide⟩, trivial, Nat.zero_le _⟩
  have whole : quietBag.NoDoubles := Bag.noDoubles_empty.set _ trivial
  exact Document.load_of_contents? held whole there

theorem disk_open_quiet {surface : Surface}
    (there : surface.disk.contents? ⟨"/globalSettings.json"⟩ =
      .ok (some (Document.contents quietBag))) :
    (Session.open surface ⟨⟨"/"⟩⟩).2.disk = surface.disk := by
  have age : Settings.backupsMaximumDays
      (Document.load surface.disk (Layout.settings ⟨⟨"/"⟩⟩)) = -1 := by
    rw [show Layout.settings ⟨⟨"/"⟩⟩ = ⟨"/globalSettings.json"⟩ from rfl, load_quietBag there]
    rfl
  obtain ⟨-, ticker, opened⟩ := Session.open_eq surface ⟨⟨"/"⟩⟩
  rw [opened, age]
  rfl

def quietDiskWith (contents : ByteArray) : Disk :=
  ⟨(["globalHistory.json"], .file contents) :: quietDisk.nodes, []⟩

theorem replace_quietDisk (contents : ByteArray) :
    quietDisk.replace (Layout.history ⟨⟨"/"⟩⟩) contents = (quietDiskWith contents, .ok ()) := by
  rw [@Disk.replace_at_root quietDisk _ "globalHistory.json" rfl (fun _ => rfl) rfl (by decide) rfl
    (by simp [quietDisk, Disk.node?]) (by simp [quietDisk, Disk.isDirectoryAt, Disk.node?])]
  simp [quietDisk, quietDiskWith, Disk.put, Disk.erase]

theorem takes_quietDisk : quietDisk.Takes (Layout.history ⟨⟨"/"⟩⟩) := fun contents => by
  rw [replace_quietDisk]

theorem takes_quietDiskWith (contents : ByteArray) :
    (quietDiskWith contents).Takes (Layout.history ⟨⟨"/"⟩⟩) := fun next => by
  rw [@Disk.replace_at_root (quietDiskWith contents) _ "globalHistory.json" rfl (fun _ => rfl) rfl
    (by decide) rfl (by simp [quietDiskWith, quietDisk, Disk.node?])
    (by simp [quietDiskWith, quietDisk, Disk.isDirectoryAt, Disk.node?])]

theorem visitTo_quietDisk {now : Instant} (clock : now.Valid) :
    let opened := Session.open ⟨quietDisk, ⟨0⟩, now⟩ ⟨⟨"/"⟩⟩
    ∃ contents, (visitTo opened.1 opened.2 (.named "/d" "d")).disk = quietDiskWith contents := by
  intro opened
  have fresh : opened.1.Opened ⟨⟨"/"⟩⟩ := Session.opened_open _ _
  have same : opened.2.now = now := (Session.open_eq _ _).1
  have quiet : opened.2.disk = quietDisk := @disk_open_quiet ⟨quietDisk, ⟨0⟩, now⟩ rfl
  clear_value opened
  obtain ⟨bag, closed, -⟩ := @lists_visit _ _ fresh opened.2 (same ▸ clock) (.named "/d" "d")
    (by decide) (quiet ▸ takes_quietDisk)
  rw [quiet, replace_quietDisk] at closed
  exact ⟨_, closed⟩

theorem entries_quietDisk : (historyOn quietDisk ⟨⟨"/"⟩⟩).trail.entries = [] := by
  have missing : Document.load quietDisk (Layout.history ⟨⟨"/"⟩⟩) = Bag.empty := by rfl
  rw [historyOn_entries _ _ (Trail.empty 0), missing, List.eq_nil_iff_forall_not_mem]
  intro entry inside
  obtain ⟨old, given, -⟩ := Trail.mem_replace inside
  exact absurd given List.not_mem_nil

theorem limit_historyOn_pos (disk : Disk) (layout : Layout) :
    0 < (historyOn disk layout).trail.limit := by
  have clamped (limit : Nat) : 0 < Trail.clampLimit limit := by
    unfold Trail.clampLimit
    omega
  exact clamped _

/-- A directory that is visited and then to be forgotten under the same relative path is still
listed. -/
theorem listed_after_relative :
    let layout : Layout := ⟨⟨"/"⟩⟩
    let visited := run quietDisk ⟨1700000000, 0⟩ layout (.visit ⟨"d"⟩ none)
    let forgotten := run visited.disk ⟨1700000060, 0⟩ layout (.forget "d")
    Lists visited.disk layout "/d" ∧ Lists forgotten.disk layout "/d" := by
  have clock : Instant.Valid ⟨1700000000, 0⟩ := by decide
  have distinct : quietDisk.Distinct := by simp [Disk.Distinct, quietDisk]
  have opened := @disk_open_quiet ⟨quietDisk, ⟨0⟩, ⟨1700000000, 0⟩⟩ rfl
  obtain ⟨contents, closed⟩ := visitTo_quietDisk clock
  have reopened := @disk_open_quiet ⟨quietDiskWith contents, ⟨0⟩, ⟨1700000060, 0⟩⟩ rfl
  have leads : locationOf quietDisk ⟨"d"⟩ = .named "/d" "d" := by decide
  obtain ⟨visits, forgets, same⟩ := @listed_unless_under quietDisk distinct ⟨⟨"/"⟩⟩ (.named "/d" "d")
    (by decide) ⟨1700000000, 0⟩ clock ⟨1700000060, 0⟩ "d" (opened ▸ takes_quietDisk)
    (by rw [closed, reopened]; exact takes_quietDiskWith contents)
  have led : _ = _ := same ⟨"d"⟩ none (by rw [opened, leads]; rfl)
  have few : ((historyOn quietDisk ⟨⟨"/"⟩⟩).trail.laterOthers "/d" ⟨1700000000, 0⟩).length <
      (historyOn quietDisk ⟨⟨"/"⟩⟩).trail.limit := by
    rw [Trail.laterOthers, Trail.others, entries_quietDisk]
    exact limit_historyOn_pos _ _
  have listed := visits.mpr few
  dsimp only
  rw [led]
  exact ⟨listed, forgets.mpr ⟨listed, by decide⟩⟩

end CommandLine

end Waymark
