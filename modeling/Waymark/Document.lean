import Waymark.Backup
import Waymark.Bag
import Waymark.Disk.Replace
import Waymark.Json.Print
import Waymark.Mailbox
/-!
# Documents

A document is a bag bound to a file. Changes are announced at once. A save only marks the document;
the file is written later, when the writer's deadline comes, and once for all saves before it.
Without a writer it is written at every save.
-/

namespace Waymark

inductive Request where
  | schedule (delay : Nat)
  | flush
  deriving DecidableEq

/-- The writer takes requests in their order and waits for one deadline at most. -/
structure Writer where
  queue : List Request
  deadline : Option Nat
  deriving DecidableEq

structure Document where
  path : Path
  bag : Bag
  /-- Whether a save still has to be written. -/
  isPending : Bool
  writes : Nat
  writer : Option Writer
  notices : Mailbox String

namespace Document

def soon : Nat :=
  300

def read (disk : Disk) (path : Path) : Except Failure (Option Bag) := do
  match ← disk.contents? path with
  | none => .ok none
  | some contents =>
      match Bag.ofBytes contents with
      | .ok bag => .ok (some bag)
      | .error fault => .error (.json fault)

/-- The bag in a file. One that is missing or cannot be read counts as empty. -/
def load (disk : Disk) (path : Path) : Bag :=
  match read disk path with
  | .ok (some bag) => bag
  | _ => .empty

def ofBag (path : Path) (bag : Bag) (hasWriter : Bool) : Document :=
  ⟨path, bag, false, 0, if hasWriter then some ⟨[], none⟩ else none, .empty⟩

def «open» (disk : Disk) (path : Path) (hasWriter : Bool) : Document :=
  ofBag path (load disk path) hasWriter

/-! ## Changes -/

def announce (document : Document) (names : List String) : Document :=
  { document with notices := document.notices.postAll names }

def set (document : Document) (name : String) (value : Json) : Document × Bool :=
  match document.bag.set name value with
  | (bag, true) => ({ document with bag }.announce [name], true)
  | (_, false) => (document, false)

def remove (document : Document) (name : String) : Document × Bool :=
  match document.bag.remove name with
  | (bag, true) => ({ document with bag }.announce [name], true)
  | (_, false) => (document, false)

def copyFrom (document : Document) (bag : Bag) : Document × Nat :=
  bag.members.foldl (fun (document, count) (name, value) =>
    match document.set name value with
    | (document, true) => (document, count + 1)
    | (document, false) => (document, count)) (document, 0)

/-! ## Writing -/

def contents (bag : Bag) : ByteArray :=
  bag.toJson.indented.toUTF8

def beginWrite (document : Document) : Document :=
  { document with isPending := false }

def endWrite (document : Document) (result : Except Failure Unit) : Document :=
  match result with
  | .ok () => { document with writes := document.writes + 1 }
  | .error _ => document

def writePending (document : Document) (disk : Disk) : Document × Disk × Except Failure Unit :=
  if document.isPending then
    let begun := document.beginWrite
    let (disk, result) := disk.replace document.path (contents begun.bag)
    (begun.endWrite result, disk, result)
  else (document, disk, .ok ())

def ask (document : Document) (request : Request) : Document :=
  match document.writer with
  | some writer => { document with writer := some ⟨writer.queue ++ [request], writer.deadline⟩ }
  | none => document

def save (document : Document) (disk : Disk) (delay : Nat) :
    Document × Disk × Except Failure Unit :=
  let marked := { document with isPending := true }
  if delay = 0 || marked.writer.isNone then marked.writePending disk
  else (marked.ask (.schedule delay), disk, .ok ())

def saveSoon (document : Document) (disk : Disk) : Document × Disk :=
  let (document, disk, _) := document.save disk soon
  (document, disk)

def setAndSave (document : Document) (disk : Disk) (name : String) (value : Json) :
    Document × Disk :=
  (document.set name value).1.saveSoon disk

def withDeadline (document : Document) (deadline : Option Nat) : Document :=
  { document with writer := document.writer.map fun writer => { writer with deadline } }

/-- The writer does what it is asked for at a time of its clock. A failed write is forgotten. -/
def serve (document : Document) (disk : Disk) (now : Nat) : Request → Document × Disk
  | .schedule delay => (document.withDeadline (some (now + delay)), disk)
  | .flush =>
      let (document, disk, _) := (document.withDeadline none).writePending disk
      (document, disk)

def serveAll (document : Document) (disk : Disk) (now : Nat) : Document × Disk :=
  match document.writer with
  | none => (document, disk)
  | some writer =>
      let emptied := { document with writer := some { writer with queue := [] } }
      writer.queue.foldl (fun (document, disk) request => document.serve disk now request)
        (emptied, disk)

/-- The writer serves its deadline, if that comes before `later`. -/
def expire (document : Document) (disk : Disk) (later : Nat) : Document × Disk :=
  match document.writer with
  | some ⟨_, some deadline⟩ =>
      if deadline < later then
        let (document, disk, _) := (document.withDeadline none).writePending disk
        (document, disk)
      else (document, disk)
  | _ => (document, disk)

/-- The writer serves a deadline that has come, before anything that it is asked for at that time.
Where both are there it is free to do either first. -/
def serveDue (document : Document) (disk : Disk) (now : Nat) : Document × Disk :=
  document.expire disk (now + 1)

/-- Lets time pass, from `now` until just before `later`. The writer takes what it was asked for,
and serves its deadline if the time passes that; where it serves at `now` a deadline that is `now`
itself, `serveDue` comes before. -/
def wait (document : Document) (disk : Disk) (now later : Nat) : Document × Disk :=
  let (document, disk) := document.serveAll disk now
  document.expire disk later

/-- Writes what is pending now. With a writer, the writer does it and forgets a failure. -/
def flush (document : Document) (disk : Disk) (now : Nat) :
    Document × Disk × Except Failure Unit :=
  let (document, disk) := (document.ask .flush).serveAll disk now
  document.writePending disk

def close (document : Document) (disk : Disk) : Disk :=
  (document.writePending disk).2.1

/-! ## Files changed by others -/

/-- Takes over the file, unless a save is pending, and gives the names that changed. -/
def reload (document : Document) (disk : Disk) : Document × List String :=
  if document.isPending then (document, [])
  else
    match read disk document.path with
    | .ok (some other) =>
        let (bag, names) := document.bag.replaceWith other
        ({ document with bag }.announce names, names)
    | _ => (document, [])

def backup (document : Document) (disk : Disk) (ticker : Ticker) (now : Instant)
    (maximumDays : Int) : Disk × Ticker × Option Path :=
  match Backup.make disk ticker now document.path maximumDays with
  | (disk, ticker, .ok made) => (disk, ticker, made)
  | (disk, ticker, .error _) => (disk, ticker, none)

def get? {α : Type} (document : Document) (decoder : Json.Decoder α) (name : String) : Option α :=
  document.bag.get? decoder name

end Document
end Waymark
