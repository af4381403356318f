import Waymark.Document
import Waymark.Proofs.Bag
import Waymark.Proofs.Disk.Replace
/-!
# The contents of documents

A bag that was written to a file is the bag that is loaded from it.
-/

namespace Waymark.Document

theorem load_held (disk : Disk) (path : Path) : (load disk path).Held := by
  unfold load
  split
  · rename_i bag found
    obtain ⟨contents, -, found⟩ := of_bind_ok found
    cases contents with
    | none => cases found
    | some contents =>
        simp only at found
        split at found
        · rename_i read
          cases found
          exact Bag.held_of_ofBytes read
        · cases found
  · exact Bag.held_empty

theorem ofBytes_contents {bag : Bag} (held : bag.Held) (whole : bag.NoDoubles) :
    Bag.ofBytes (contents bag) = .ok bag :=
  Bag.ofBytes_write Json.Spacing.blank_indented held whole

theorem read_of_written {disk : Disk} {path : Path} {bag : Bag} (held : bag.Held)
    (written : disk.contents? path = .ok (some (contents bag))) :
    read disk path = .ok (some bag.reread) := by
  have again : Bag.ofBytes (contents bag) = .ok bag.reread :=
    Bag.ofBytes_write_shallow Json.Spacing.blank_indented held
  simp only [read, written, bind, Except.bind, again]

theorem load_of_written {disk : Disk} {path : Path} {bag : Bag} (held : bag.Held)
    (written : disk.contents? path = .ok (some (contents bag))) :
    load disk path = bag.reread := by
  rw [load, read_of_written held written]

theorem load_of_contents? {disk : Disk} {path : Path} {bag : Bag} (held : bag.Held)
    (whole : bag.NoDoubles) (found : disk.contents? path = .ok (some (contents bag))) :
    load disk path = bag :=
  (load_of_written held found).trans (Bag.reread_of_noDoubles whole)

theorem load_replaced {before after : Disk} {path : Path} {bag : Bag} (held : bag.Held)
    (whole : bag.NoDoubles) (replaced : before.replace path (contents bag) = (after, .ok ())) :
    load after path = bag :=
  load_of_contents? held whole (Disk.contents?_replace replaced)

theorem read_replaced {before after : Disk} {path : Path} {bag : Bag}
    (replaced : before.replace path (contents bag) = (after, .ok ())) :
    read after path = match Bag.ofBytes (contents bag) with
      | .ok bag => .ok (some bag)
      | .error fault => .error (.json fault) := by
  rw [read, Disk.contents?_replace replaced]
  rfl

section
variable {disk : Disk} {path : Path} {bag file : Bag}

theorem read_of_contents? (held : bag.Held) (whole : bag.NoDoubles)
    (found : disk.contents? path = .ok (some (contents bag))) : read disk path = .ok (some bag) := by
  simp only [read, found, bind, Except.bind, ofBytes_contents held whole]

theorem load_of_read (found : read disk path = .ok (some file)) : load disk path = file := by
  rw [load, found]

theorem held_of_read (found : read disk path = .ok (some file)) : file.Held :=
  load_of_read found ▸ load_held disk path

theorem eq_reread_of_read (formed : bag.Formed)
    (written : disk.contents? path = .ok (some (contents bag)))
    (found : read disk path = .ok (some file)) : file = bag.reread := by
  simp only [read, written, bind, Except.bind] at found
  by_cases deep : ∃ property ∈ bag.properties, Json.maximumDepth ≤ property.value.depth
  · rw [contents, Json.indented,
      Bag.ofBytes_write_deep Json.Spacing.blank_indented formed deep] at found
    cases found
  · have held : bag.Held := fun property inside =>
      ⟨(formed property inside).1, (formed property inside).2,
        Nat.le_pred_of_lt (Nat.not_le.mp fun below => deep ⟨property, inside, below⟩)⟩
    rw [contents, Json.indented,
      Bag.ofBytes_write_shallow Json.Spacing.blank_indented held] at found
    cases found
    rfl

end

variable (document : Document) (disk : Disk)

def SameBag (other document : Document) : Prop :=
  other.bag = document.bag ∧ other.path = document.path

theorem sameBag_endWrite (result : Except Failure Unit) :
    SameBag (document.endWrite result) document := by
  cases result <;> exact ⟨rfl, rfl⟩

theorem sameBag_writePending : SameBag (document.writePending disk).1 document := by
  unfold writePending
  split
  · exact sameBag_endWrite document.beginWrite _
  · exact ⟨rfl, rfl⟩

theorem sameBag_ask (request : Request) : SameBag (document.ask request) document := by
  unfold ask
  split <;> exact ⟨rfl, rfl⟩

theorem sameBag_save (delay : Nat) : SameBag (document.save disk delay).1 document := by
  unfold save
  dsimp only
  split
  · exact sameBag_writePending { document with isPending := true } disk
  · exact sameBag_ask { document with isPending := true } _

theorem sameBag_serve (now : Nat) (request : Request) :
    SameBag (document.serve disk now request).1 document := by
  cases request with
  | schedule delay => exact ⟨rfl, rfl⟩
  | flush => exact sameBag_writePending (document.withDeadline none) disk

theorem sameBag_serveAll (now : Nat) : SameBag (document.serveAll disk now).1 document := by
  unfold serveAll
  split
  · exact ⟨rfl, rfl⟩
  · rename_i writer _
    suffices ∀ (requests : List Request) (start : Document × Disk), SameBag start.1 document →
        SameBag (requests.foldl (fun stage request => stage.1.serve stage.2 now request) start).1
          document from this writer.queue (_, disk) ⟨rfl, rfl⟩
    intro requests
    induction requests with
    | nil => exact fun start same => same
    | cons request rest ih =>
        intro start same
        obtain ⟨bag, path⟩ := sameBag_serve start.1 start.2 now request
        exact ih _ ⟨bag.trans same.1, path.trans same.2⟩

theorem sameBag_expire (later : Nat) : SameBag (document.expire disk later).1 document := by
  unfold expire
  split
  · split
    · exact sameBag_writePending (document.withDeadline none) disk
    · exact ⟨rfl, rfl⟩
  · exact ⟨rfl, rfl⟩

theorem sameBag_wait (now later : Nat) : SameBag (document.wait disk now later).1 document := by
  obtain ⟨bag, path⟩ := sameBag_serveAll document disk now
  obtain ⟨laterBag, laterPath⟩ :=
    sameBag_expire (document.serveAll disk now).1 (document.serveAll disk now).2 later
  exact ⟨laterBag.trans bag, laterPath.trans path⟩

theorem sameBag_saveSoon : SameBag (document.saveSoon disk).1 document :=
  sameBag_save document disk soon

def IsIdle : Prop :=
  ∀ writer ∈ document.writer, writer.queue = [] ∧ writer.deadline = none

theorem expire_of_idle {document : Document} (idle : document.IsIdle) (later : Nat) :
    document.expire disk later = (document, disk) := by
  unfold expire
  split
  · rename_i held
    exact nomatch (idle _ held).2
  · rfl

theorem wait_of_idle {document : Document} (idle : document.IsIdle) (now later : Nat) :
    document.wait disk now later = (document, disk) := by
  obtain ⟨path, bag, isPending, writes, writer, notices⟩ := document
  cases writer with
  | none => rfl
  | some writer =>
      obtain ⟨queue, deadline⟩ := writer
      obtain ⟨noRequest, noDeadline⟩ := idle _ rfl
      cases noRequest
      cases noDeadline
      rfl

theorem idle_open (disk : Disk) (path : Path) (hasWriter : Bool) :
    («open» disk path hasWriter).IsIdle := by
  intro writer here
  cases hasWriter with
  | false => cases here
  | true =>
      cases here
      exact ⟨rfl, rfl⟩

theorem bag_set_unchanged {bag : Bag} {name : String} {value : Json}
    (unchanged : (bag.set name value).2 = false) : (bag.set name value).1 = bag := by
  unfold Bag.set at unchanged ⊢
  split
  · rfl
  rename_i nonempty
  simp only [nonempty, dif_neg, not_false_eq_true] at unchanged
  split at unchanged
  · rw [if_pos ‹_›]
  · cases unchanged

theorem set_eq (document : Document) (name : String) (value : Json) :
    document.set name value =
      ({ document with
          bag := (document.bag.set name value).1
          notices := document.notices.postAll
            (if (document.bag.set name value).2 then [name] else []) },
        (document.bag.set name value).2) := by
  unfold set
  split <;> rename_i found <;> rw [found]
  · rfl
  · have same : (document.bag.set name value).1 = document.bag :=
      bag_set_unchanged (congrArg Prod.snd found)
    rw [found] at same
    obtain rfl : _ = document.bag := same
    rfl

theorem set_flag (document : Document) (name : String) (value : Json) :
    (document.set name value).2 = (document.bag.set name value).2 := by
  rw [set_eq]

theorem set_bag (document : Document) (name : String) (value : Json) :
    (document.set name value).1.bag = (document.bag.set name value).1 ∧
      (document.set name value).1.path = document.path := by
  rw [set_eq]
  exact ⟨rfl, rfl⟩

theorem setAndSave_bag (document : Document) (disk : Disk) (name : String) (value : Json) :
    (document.setAndSave disk name value).1.bag = (document.bag.set name value).1 ∧
      (document.setAndSave disk name value).1.path = document.path := by
  obtain ⟨bag, path⟩ := set_bag document name value
  obtain ⟨savedBag, savedPath⟩ := sameBag_saveSoon (document.set name value).1 disk
  exact ⟨savedBag.trans bag, savedPath.trans path⟩

end Waymark.Document
