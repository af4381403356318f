import Waymark.Session
import Waymark.Proofs.Bag.Latest
import Waymark.Proofs.Disk.Spared
import Waymark.Proofs.Document.Accepted
import Waymark.Proofs.Document.Covered
import Waymark.Proofs.History.Reopened
/-!
# Sessions that were opened and are shut down

Opening a session reads two documents and backs them up, which leaves the files themselves as they
are. Shutting it down writes what was asked for and was not written yet.
-/

namespace Waymark

namespace History

theorem entries_of_written {disk : Disk} {path : Path} {bag : Bag} {trail : Trail}
    (coherent : trail.Coherent) (valid : ∀ entry ∈ trail.entries, entry.visited.Valid)
    (held : bag.Held) (stored : bag.value? entriesName = some (entriesValue trail.entries))
    (written : disk.contents? path = .ok (some (Document.contents bag))) (other : Trail) :
    (other.replace (entriesOf (Document.load disk path))).entries.map Entry.bare =
      trail.entries.map Entry.bare := by
  refine coherent.replace_copy other ?_
  have again : bag.reread.value? entriesName = some (entriesValue trail.entries) := by
    rw [Bag.value?_reread, stored, Option.map_some,
      Json.reread_of_noDoubles (entriesValue_noDoubles _)]
  rw [Document.load_of_written held written, entriesOf_of_value? valid again]
  simp [Entry.bare, Function.comp_def]

theorem record_of_idle {history : History} (idle : history.document.writer = some ⟨[], none⟩)
    (trail : Trail) (disk : Disk) :
    ∃ document, history.record trail disk = (⟨trail, document⟩, disk) ∧
      document.isPending = true ∧
      document.writer = some ⟨[Document.soon].map .schedule, none⟩ ∧
      document.path = history.document.path ∧
      document.bag = (history.document.bag.set entriesName (entriesValue trail.entries)).1 := by
  have changes := history.document.changes_set entriesName (entriesValue trail.entries)
  have saved := Document.save_deferred (by decide : Document.soon ≠ 0) (changes.writer.trans idle) disk
  refine ⟨{ (history.document.set entriesName (entriesValue trail.entries)).1 with
    isPending := true
    writer := some ⟨[.schedule Document.soon], none⟩ }, ?_, rfl, rfl, changes.path,
    (Document.set_bag _ _ _).1⟩
  rw [record, Document.setAndSave, Document.saveSoon, saved]
  rfl

end History

namespace Session

@[simp] theorem emitIf_settings (session : Session) (condition : Bool) (event : Event) :
    (session.emitIf condition event).settings = session.settings := by
  unfold emitIf emit send
  split
  · split <;> rfl
  · rfl

@[simp] theorem emitIf_history (session : Session) (condition : Bool) (event : Event) :
    (session.emitIf condition event).history = session.history := by
  unfold emitIf emit send
  split
  · split <;> rfl
  · rfl

variable {session : Session} {layout : Layout} {disk : Disk}

structure Opened (session : Session) (layout : Layout) : Prop where
  settingsSaved : session.settings.isPending = false
  settingsIdle : session.settings.writer = some ⟨[], none⟩
  settingsPath : session.settings.path = layout.settings
  historySaved : session.history.document.isPending = false
  historyIdle : session.history.document.writer = some ⟨[], none⟩
  path : session.history.document.path = layout.history
  held : session.history.document.bag.Held
  coherent : session.history.trail.Coherent
  valid : ∀ entry ∈ session.history.trail.entries, entry.visited.Valid

theorem opened_open (surface : Surface) (layout : Layout) :
    (Session.open surface layout).1.Opened layout where
  settingsSaved := rfl
  settingsIdle := rfl
  settingsPath := rfl
  historySaved := rfl
  historyIdle := rfl
  path := rfl
  held := Document.load_held surface.disk layout.history
  coherent := (Trail.coherent_empty _).replace _
  valid := by
    intro entry inside
    obtain ⟨old, given, -, visited⟩ := Trail.mem_replace inside
    exact visited ▸ History.entriesOf_valid _ old given

/-- All that is left to be done at the end is to write the history. -/
theorem disk_shutDown (saved : session.settings.isPending = false)
    (idle : session.settings.writer = some ⟨[], none⟩) {delays : List Nat} {deadline : Option Nat}
    (asked : session.history.document.writer = some ⟨delays.map .schedule, deadline⟩)
    (disk : Disk) (now : Nat) :
    (session.shutDown disk now).1 = (session.history.document.writePending disk).2.1 := by
  obtain ⟨same, clean⟩ := @Document.flush_of_schedules session.settings [] none idle disk now
  rw [Document.writePending_clean _ saved] at same
  obtain ⟨written, done⟩ := Document.flush_of_schedules asked disk now
  unfold shutDown
  dsimp only
  rw [same]
  dsimp only
  rw [written, Document.close, Document.close, Document.writePending_clean _ clean,
    Document.writePending_clean _ done]

theorem backup_eq (document : Document) (disk : Disk) (ticker : Ticker) (now : Instant)
    (age : Int) : (document.backup disk ticker now age).1 =
      (Backup.make disk ticker now document.path age).1 := by
  unfold Document.backup
  split <;> simp [*]

theorem backUp_eq (session : Session) (surface : Surface) :
    let age := Settings.backupsMaximumDays session.settings.bag
    (session.backUp surface).1.now = surface.now ∧
      ∃ ticker, (session.backUp surface).1.disk =
        (Backup.make (Backup.make surface.disk surface.ticker surface.now session.settings.path
          age).1 ticker surface.now session.history.document.path age).1 := by
  unfold backUp
  dsimp only
  generalize Settings.backupsMaximumDays session.settings.bag = age
  have first := backup_eq session.settings surface.disk surface.ticker surface.now age
  generalize session.settings.backup surface.disk surface.ticker surface.now age = settings at *
  obtain ⟨disk, ticker, made⟩ := settings
  dsimp only at first ⊢
  have second := backup_eq session.history.document disk ticker surface.now age
  generalize session.history.document.backup disk ticker surface.now age = history at *
  exact ⟨rfl, ticker, first ▸ second⟩

theorem stem?_settings (layout : Layout) : layout.settings.stem? = some "globalSettings" := by
  rw [Path.stem?, layout.fileName?_settings]
  rfl

theorem stem?_history (layout : Layout) : layout.history.stem? = some "globalHistory" := by
  rw [Path.stem?, layout.fileName?_history]
  rfl

theorem open_eq (surface : Surface) (layout : Layout) :
    let age := Settings.backupsMaximumDays (Document.load surface.disk layout.settings)
    (Session.open surface layout).2.now = surface.now ∧
      ∃ ticker, (Session.open surface layout).2.disk =
        (Backup.make (Backup.make surface.disk surface.ticker surface.now layout.settings age).1
          ticker surface.now layout.history age).1 := by
  have opened : (Session.open surface layout).2 =
      ((Session.open surface layout).1.backUp surface).1 := by simp only [Session.open]
  have fresh := opened_open surface layout
  have backed := backUp_eq (Session.open surface layout).1 surface
  rw [fresh.settingsPath, fresh.path] at backed
  rw [opened]
  exact backed

theorem distinct_open {surface : Surface} (distinct : surface.disk.Distinct) (layout : Layout) :
    (Session.open surface layout).2.disk.Distinct := by
  obtain ⟨-, ticker, opened⟩ := open_eq surface layout
  rw [opened]
  exact Backup.distinct_make (Backup.distinct_make distinct _ _ _ (stem?_settings layout)) _ _ _
    (stem?_history layout)

theorem contents?_open {surface : Surface} (distinct : surface.disk.Distinct)
    {contents : ByteArray} (there : surface.disk.contents? layout.history = .ok (some contents)) :
    (Session.open surface layout).2.disk.contents? layout.history = .ok (some contents) := by
  obtain ⟨-, ticker, opened⟩ := open_eq surface layout
  generalize Settings.backupsMaximumDays (Document.load surface.disk layout.settings) = age at opened
  have stays : Backup.isExpired surface.now.date (age * Backup.day) "globalHistory.json" = false :=
    rfl
  have first := Backup.spares_make distinct surface.ticker surface.now age (stem?_settings layout)
    (by decide) (by decide) stays
  have distinct := Backup.distinct_make distinct surface.ticker surface.now age
    (stem?_settings layout)
  have second := Backup.spares_make distinct ticker surface.now age (stem?_history layout)
    (by decide) (by decide) stays
  rw [opened]
  exact Disk.contents?_of_spares (first.trans second) layout.lastName?_history (by decide) there

end Session

end Waymark
