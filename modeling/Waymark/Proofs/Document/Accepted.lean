import Waymark.Proofs.Document.Contents
/-!
# Writes that succeed

On a disk that accepts whatever is written to a file, a pending document is written whenever its
turn comes.
-/

namespace Waymark

namespace Disk

variable {disk : Disk} {path : Path}

def rewritten (disk : Disk) (path : Path) (written : List ByteArray) : Disk :=
  written.foldl (fun disk contents => (disk.replace path contents).1) disk

/-- However often a file was replaced, it can be replaced again. -/
def Accepts (disk : Disk) (path : Path) : Prop :=
  ∀ written contents, ((disk.rewritten path written).replace path contents).2 = .ok ()

theorem Accepts.replace (accepts : disk.Accepts path) (contents : ByteArray) :
    (disk.replace path contents).2 = .ok () :=
  accepts [] contents

theorem Accepts.again (accepts : disk.Accepts path) (contents : ByteArray) :
    (disk.replace path contents).1.Accepts path :=
  fun written => accepts (contents :: written)

theorem Accepts.contents? (accepts : disk.Accepts path) (contents : ByteArray) :
    (disk.replace path contents).1.contents? path = .ok (some contents) :=
  contents?_replace (Prod.ext rfl (accepts.replace contents))

theorem accepts_of_kept (condition : Disk → Prop) (holds : condition disk)
    (kept : ∀ disk contents, condition disk →
      (disk.replace path contents).2 = .ok () ∧ condition (disk.replace path contents).1) :
    disk.Accepts path := by
  intro written
  induction written generalizing disk with
  | nil => exact fun contents => (kept disk contents holds).1
  | cons first rest ih => exact ih (kept disk first holds).2

theorem temporaryPlace_at_root (here : disk.here = []) (free : disk.node? [".tmp000000"] = none) :
    disk.temporaryPlace temporaryNames ⟨"/"⟩ = .ok [".tmp000000"] := by
  have named : ((pathOf []).join ⟨"/"⟩).child ".tmp000000" = ⟨"/.tmp000000"⟩ := by decide
  have slotted : disk.slot ⟨"/.tmp000000"⟩ = .ok ⟨[], some ".tmp000000", false⟩ := by rfl
  have found : (temporaryNames.map (· :: [])).find? (fun place => (disk.node? place).isNone) =
      some [".tmp000000"] := by
    rw [temporaryNames, List.range_succ_eq_map, List.map_cons, List.map_cons, List.find?_cons,
      show ".tmp00000" ++ toString 0 = ".tmp000000" by decide, free]
    rfl
  simp only [temporaryPlace, here, named, slotted, bind, Except.bind, found]

theorem replace_at_root {name : String} (directory : directoryOf path = .ok ⟨"/"⟩)
    (slotted : ∀ disk : Disk, disk.slot path = .ok ⟨[], some name, false⟩)
    (followed : follow [] name = .ok [name]) (another : name ≠ ".tmp000000") (here : disk.here = [])
    (free : disk.node? [".tmp000000"] = none) (plain : disk.isDirectoryAt [name] = false)
    (contents : ByteArray) :
    disk.replace path contents =
      (((disk.put [".tmp000000"] (.file contents)).erase [".tmp000000"]).put [name]
        (.file contents), .ok ()) := by
  have made : disk.making (noTrouble <| .makeDirectory · ·) ⟨"/"⟩ = ⟨[], disk, .ok ()⟩ := by rfl
  let filled := disk.put [".tmp000000"] (.file contents)
  have there : filled.node? [".tmp000000"] = some (.file contents) :=
    node?_put (List.cons_ne_nil _ _)
  have stays : filled.isDirectoryAt [name] = false := by
    rw [isDirectoryAt, node?_put_of_ne (by simpa using another)]
    exact plain
  have placed : (Slot.mk [] (some name) false).place? = .ok (some [name]) := by
    simp only [Slot.place?, followed, Except.map]
  have moved : filled.rename [".tmp000000"] path =
      .ok ((filled.erase [".tmp000000"]).put [name] (.file contents)) := by
    simp only [rename, slotted, placed, there, stays, bind, Except.bind, Bool.false_eq_true,
      if_false]
  have attempts : renameAttempts noTrouble filled [".tmp000000"] path =
      (1, .ok ((filled.erase [".tmp000000"]).put [name] (.file contents))) := by
    simp [renameAttempts, noTrouble, guard, Retry.run, Retry.runFrom, Retry.maximumCalls, bind,
      Except.bind, moved]
  unfold replace replaceCourse replaceAmid
  rw [directory]
  have ready : guard noTrouble .makeTemporary = .ok () := rfl
  have temporary := temporaryPlace_at_root here free
  have course : replaceFrom ⟨noTrouble, temporaryNames, []⟩ disk [".tmp000000"] path contents =
      ⟨[filled, disk.put [".tmp000000"] (.file .empty)],
        (filled.erase [".tmp000000"]).put [name] (.file contents), .ok (), 1⟩ := by
    rw [replaceFrom, attempts]
    rfl
  simp only [made, ready, temporary, course]
  rfl

def ofDocument (contents : ByteArray) : Disk :=
  ⟨[(["d.json"], .file contents)], []⟩

theorem replace_ofDocument (old contents : ByteArray) :
    (ofDocument old).replace ⟨"/d.json"⟩ contents = (ofDocument contents, .ok ()) := by
  rw [@replace_at_root (ofDocument old) _ "d.json" rfl (fun _ => rfl) rfl (by decide) rfl rfl rfl]
  rfl

def blank : Disk :=
  ⟨[], []⟩

theorem replace_blank (contents : ByteArray) :
    blank.replace ⟨"/d.json"⟩ contents = (ofDocument contents, .ok ()) :=
  rfl

theorem accepts_ofDocument (contents : ByteArray) : (ofDocument contents).Accepts ⟨"/d.json"⟩ := by
  refine accepts_of_kept (fun disk => ∃ contents, disk = ofDocument contents) ⟨contents, rfl⟩ ?_
  rintro disk next ⟨old, rfl⟩
  rw [replace_ofDocument]
  exact ⟨rfl, next, rfl⟩

theorem accepts_blank : blank.Accepts ⟨"/d.json"⟩ := by
  intro written
  cases written with
  | nil =>
      intro contents
      exact congrArg Prod.snd (replace_blank contents)
  | cons first rest =>
      have replaced : (blank.replace ⟨"/d.json"⟩ first).1 = ofDocument first :=
        congrArg Prod.fst (replace_blank first)
      rw [rewritten, List.foldl_cons, replaced]
      exact accepts_ofDocument first rest

end Disk

namespace Document

variable {disk : Disk}

theorem writePending_clean (document : Document) (clean : document.isPending = false) (disk : Disk) :
    document.writePending disk = (document, disk, .ok ()) := by
  rw [writePending, clean]
  rfl

theorem disk_writePending_of_pending (document : Document) (pending : document.isPending = true)
    (disk : Disk) :
    (document.writePending disk).2.1 = (disk.replace document.path (contents document.bag)).1 := by
  unfold writePending
  rw [if_pos pending]
  rfl

def written (document : Document) : Document :=
  { document with isPending := false, writes := document.writes + 1 }

theorem writePending_accepted (document : Document) (pending : document.isPending = true)
    (accepts : disk.Accepts document.path) : document.writePending disk =
      (document.written, (disk.replace document.path (contents document.bag)).1, .ok ()) := by
  have done := accepts.replace (contents document.bag)
  unfold writePending
  rw [if_pos pending]
  simp only [beginWrite, endWrite, written, done]

theorem save_accepted {document : Document} {delay : Nat} (atOnce : delay = 0 ∨ document.writer = none)
    (accepts : disk.Accepts document.path) : document.save disk delay =
      (document.written, (disk.replace document.path (contents document.bag)).1, .ok ()) := by
  have now : (delay = 0 || document.writer.isNone) = true := by simpa using atOnce
  rw [save]
  dsimp only
  rw [if_pos now]
  exact writePending_accepted { document with isPending := true } rfl accepts

theorem save_deferred {document : Document} {delay : Nat} (deferred : delay ≠ 0) {writer : Writer}
    (held : document.writer = some writer) (disk : Disk) : document.save disk delay =
      ({ document with
        isPending := true
        writer := some ⟨writer.queue ++ [.schedule delay], writer.deadline⟩ }, disk, .ok ()) := by
  simp [save, ask, deferred, held]

variable {document : Document}

theorem accepts_writePending (accepts : disk.Accepts document.path) :
    (document.writePending disk).2.1.Accepts (document.writePending disk).1.path := by
  cases pending : document.isPending with
  | false =>
      rw [document.writePending_clean pending]
      exact accepts
  | true =>
      rw [document.writePending_accepted pending accepts]
      exact accepts.again _

theorem isPending_writePending (document : Document) (disk : Disk) :
    (document.writePending disk).1.isPending = false := by
  unfold writePending
  split
  · dsimp only
    cases (disk.replace document.path (contents document.beginWrite.bag)).2 <;> rfl
  · rename_i clean
    exact Bool.eq_false_iff.mpr clean

theorem disk_writePending {other : Document} (same : SameBag other document)
    (isPending : other.isPending = document.isPending) (disk : Disk) :
    (other.writePending disk).2 = (document.writePending disk).2 := by
  unfold writePending
  rw [isPending]
  split
  · simp only [beginWrite, same.1, same.2]
  · rfl

theorem served_schedules (delays : List Nat) (document : Document) (disk : Disk) (now : Nat) :
    ∃ served, (delays.map Request.schedule).foldl
        (fun (document, disk) request => document.serve disk now request) (document, disk) =
          (served, disk) ∧
      SameBag served document ∧ served.isPending = document.isPending := by
  induction delays generalizing document with
  | nil => exact ⟨document, rfl, ⟨rfl, rfl⟩, rfl⟩
  | cons delay rest ih =>
      obtain ⟨served, done, same, isPending⟩ := ih (document.withDeadline (some (now + delay)))
      exact ⟨served, done, same, isPending⟩

theorem flush_of_schedules {delays : List Nat} {deadline : Option Nat}
    (asked : document.writer = some ⟨delays.map .schedule, deadline⟩) (disk : Disk) (now : Nat) :
    (document.flush disk now).2.1 = (document.writePending disk).2.1 ∧
      (document.flush disk now).1.isPending = false := by
  have queue : document.ask .flush =
      { document with writer := some ⟨delays.map .schedule ++ [.flush], deadline⟩ } := by
    rw [ask, asked]
  obtain ⟨served, done, same, isPending⟩ := served_schedules delays
    { document with writer := some ⟨[], deadline⟩ } disk now
  have all : (document.ask .flush).serveAll disk now = served.serve disk now .flush := by
    rw [queue, serveAll]
    dsimp only
    rw [List.foldl_append, done]
    rfl
  have clean := isPending_writePending (served.withDeadline none) disk
  unfold flush
  rw [all]
  dsimp only [serve]
  rw [writePending_clean _ clean]
  refine ⟨?_, clean⟩
  have moved : (served.withDeadline none).SameBag document := ⟨same.1, same.2⟩
  have written : ((served.withDeadline none).writePending disk).2.1 =
      (document.writePending disk).2.1 := by rw [disk_writePending moved isPending]
  exact written

end Document
end Waymark
