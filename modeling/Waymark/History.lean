import Waymark.Document
import Waymark.Trail
import Waymark.Trail.Written
/-!
# History

A trail that is kept in a document. A visit has two parts, because the icon of a location may take
its time: first it is asked whether the visit has a use for one, later the visit is recorded. So has
the removal of entries whose locations are gone: first they are looked up, later they are removed.
-/

namespace Waymark

structure History where
  trail : Trail
  document : Document

namespace History

def entriesName : String :=
  "entries"

def entriesValue (entries : List Entry) : Json :=
  .array (entries.map fun entry => .ofMembers entry.members)

def entriesOf (bag : Bag) : List Entry :=
  (bag.get? (Json.Decoder.list Entry.decoder) entriesName).getD []

def ofDocument (document : Document) (limit : Nat) : History :=
  ⟨(Trail.empty limit).replace (entriesOf document.bag), document⟩

def record (history : History) (trail : Trail) (disk : Disk) : History × Disk :=
  let (document, disk) := history.document.setAndSave disk entriesName (entriesValue trail.entries)
  (⟨trail, document⟩, disk)

def commit (history : History) (disk : Disk) (change : Trail × Bool) : History × Disk × Bool :=
  if change.2 then
    let (history, disk) := history.record change.1 disk
    (history, disk, true)
  else ({ history with trail := change.1 }, disk, false)

def awaitsIcon (history : History) (location : Location) : Bool :=
  location.isRecordable && history.trail.needsIcon location.key

def visit (history : History) (disk : Disk) (location : Location) (icon : Option String)
    (now : Instant) : History × Disk × Bool :=
  history.commit disk (history.trail.visit location icon now)

def back (history : History) (step : Nat) : History × Option Entry :=
  let (trail, entry) := history.trail.back step
  ({ history with trail }, entry)

def forward (history : History) (step : Nat) : History × Option Entry :=
  let (trail, entry) := history.trail.forward step
  ({ history with trail }, entry)

def setLimit (history : History) (limit : Nat) : History :=
  { history with trail := history.trail.setLimit limit }

def removeKey (history : History) (disk : Disk) (key : String) : History × Disk × Bool :=
  history.commit disk (history.trail.removeKey key)

def removeUnder (history : History) (disk : Disk) (root : String) : History × Disk × Bool :=
  history.commit disk (history.trail.removeUnder root)

def missing (history : History) (isThere : String → Bool) : List String :=
  (history.trail.entries.map Entry.key).filter fun key => !isThere key

/-- Removes entries by keys that were found missing before, in whatever trail there is by now. -/
def removeMissing (history : History) (disk : Disk) (missing : List String) :
    History × Disk × Bool :=
  if missing.isEmpty then (history, disk, false)
  else history.commit disk (history.trail.prune fun key => !missing.contains key)

def prune (history : History) (disk : Disk) (isThere : String → Bool) : History × Disk × Bool :=
  history.removeMissing disk (history.missing isThere)

def clear (history : History) (disk : Disk) : History × Disk × Nat :=
  let (trail, count) := history.trail.clear
  let (history, disk, _) := history.commit disk (trail, count ≠ 0)
  (history, disk, count)

end History
end Waymark
