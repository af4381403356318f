import Waymark.Session.Watch
/-!
# Remnants of sessions

A watch holds on to the documents of its session. When a watched session is left without a last
word, they are not closed, and its writers still write at their deadlines. Nobody listens to the
watch any more: it ends once it has told of changes, and only then the documents are closed.
-/

namespace Waymark

/-- A session that was left while it was watched, with its watch. -/
structure Remnant where
  session : Session
  watch : Watch

namespace Session

def leave (session : Session) (disk : Disk) : Option Watch → Option Remnant × Disk
  | some watch => (some ⟨session, watch⟩, disk)
  | none => (none, session.abandon disk)

def deadlines (session : Session) : List Nat :=
  [session.settings, session.history.document].filterMap fun document =>
    document.writer.bind Writer.deadline

end Session

namespace Remnant

def notice (remnant : Remnant) (name : String) (now : Nat) : Remnant :=
  { remnant with watch := remnant.watch.notice remnant.session.layout name now }

def wake (remnant : Remnant) (disk : Disk) (now : Nat) : Option Remnant × Disk :=
  let (session, watch) := remnant.session.wake disk remnant.watch now
  if session.events = remnant.session.events then (some ⟨session, watch⟩, disk)
  else (none, session.abandon disk)

def wakeAll (remnants : List Remnant) (disk : Disk) (now : Nat) : List Remnant × Disk :=
  remnants.foldl (fun (woken, disk) remnant =>
    let (remnant, disk) := remnant.wake disk now
    (woken ++ remnant.toList, disk)) ([], disk)

def pass (remnants : List Remnant) (session : Session) (disk : Disk) (now later : Nat) :
    List Remnant × Session × Disk :=
  let (remnants, disk) := remnants.foldl (fun (passed, disk) remnant =>
    let (session, disk) := remnant.session.wait disk now later
    (passed ++ [{ remnant with session }], disk)) ([], disk)
  let (session, disk) := session.wait disk now later
  (remnants, session, disk)

/-- Lets time pass in such a way that all writers write in the order of their deadlines. -/
def wait (remnants : List Remnant) (session : Session) (disk : Disk) (now later : Nat) :
    List Remnant × Session × Disk :=
  let (remnants, session, disk) := pass remnants session disk now now
  let sessions := session :: remnants.map Remnant.session
  let moments := (sessions.flatMap Session.deadlines).filter fun moment => moment.blt later
  (moments.mergeSort Nat.ble ++ [later]).foldl (fun (remnants, session, disk) moment =>
    pass remnants session disk now moment) (remnants, session, disk)

end Remnant
end Waymark
