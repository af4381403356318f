import Waymark.History
import Waymark.Icon
import Waymark.Layout
import Waymark.Settings
/-!
# Sessions

A session joins the settings and the history of one window, and tells the window what changes.
Events wait in a queue; while it is full, further ones are dropped.
-/

namespace Waymark

inductive Event where
  | navigate (key : String)
  | history
  | favorites
  | settings (changed : List String)
  deriving DecidableEq

structure Session where
  layout : Layout
  settings : Document
  history : History
  events : List Event

structure Surface where
  disk : Disk
  ticker : Ticker
  now : Instant

namespace Session

def capacity : Nat :=
  64

def send (session : Session) (event : Event) : Session × Bool :=
  if session.events.length < capacity then
    ({ session with events := session.events ++ [event] }, true)
  else (session, false)

def emit (session : Session) (event : Event) : Session :=
  (session.send event).1

def emitIf (session : Session) (condition : Bool) (event : Event) : Session :=
  if condition then session.emit event else session

def backUp (session : Session) (surface : Surface) : Surface × List Path :=
  let age := Settings.backupsMaximumDays session.settings.bag
  let (disk, ticker, settings) :=
    session.settings.backup surface.disk surface.ticker surface.now age
  let (disk, ticker, history) := session.history.document.backup disk ticker surface.now age
  ({ surface with disk, ticker }, settings.toList ++ history.toList)

def «open» (surface : Surface) (layout : Layout) : Session × Surface :=
  let settings := Document.open surface.disk layout.settings true
  let history := History.ofDocument (Document.open surface.disk layout.history true)
    (Settings.maximumHistoryEntries settings.bag)
  let session : Session := ⟨layout, settings, history, []⟩
  (session, (session.backUp surface).1)

/-! ## Visits -/

def visit (session : Session) (disk : Disk) (location : Location) (icon : Option String)
    (now : Instant) : Session × Disk × Bool :=
  let (history, disk, visited) := session.history.visit disk location icon now
  ({ session with history }.emitIf visited .history, disk, visited)

def reveal (session : Session) (moved : History × Option Entry) : Session × Option Entry :=
  let session := { session with history := moved.1 }
  match moved.2 with
  | some entry => (session.emit (.navigate entry.key), some entry)
  | none => (session, none)

def back (session : Session) (step : Nat) : Session × Option Entry :=
  session.reveal (session.history.back step)

def forward (session : Session) (step : Nat) : Session × Option Entry :=
  session.reveal (session.history.forward step)

def forget (session : Session) (disk : Disk) (root : String) : Session × Disk × Bool :=
  let (history, disk, removed) := session.history.removeUnder disk root
  ({ session with history }.emitIf removed .history, disk, removed)

def prune (session : Session) (disk : Disk) (isThere : String → Bool) : Session × Disk × Bool :=
  let (history, disk, fewerEntries) := session.history.prune disk isThere
  let (settings, disk, fewerFavorites) := Settings.pruneFavorites session.settings disk isThere
  let pruned := { session with history, settings }
  ((pruned.emitIf fewerEntries .history).emitIf fewerFavorites .favorites, disk,
    fewerEntries || fewerFavorites)

def clear (session : Session) (disk : Disk) : Session × Disk × Nat :=
  let (history, disk, count) := session.history.clear disk
  ({ session with history }.emitIf (count ≠ 0) .history, disk, count)

/-! ## Favorites -/

def favoriteAwaitsIcon (session : Session) (location : Location) : Bool :=
  (Settings.favoriteIndex? session.settings.bag location.key).isNone

def toggleFavorite (session : Session) (disk : Disk) (location : Location)
    (icon : Option String) : Session × Disk × Toggle :=
  let (settings, disk, toggle) := Settings.toggleFavorite session.settings disk location icon
  ({ session with settings }.emit .favorites, disk, toggle)

/-! ## Time and the end -/

def wait (session : Session) (disk : Disk) (now later : Nat) : Session × Disk :=
  let (settings, disk) := session.settings.wait disk now later
  let (document, disk) := session.history.document.wait disk now later
  ({ session with settings, history := { session.history with document } }, disk)

def shutDown (session : Session) (disk : Disk) (now : Nat) : Disk × Except Failure Unit :=
  let (settings, disk, settingsResult) := session.settings.flush disk now
  let (document, disk, historyResult) := session.history.document.flush disk now
  let disk := document.close (settings.close disk)
  (disk, settingsResult.bind fun _ => historyResult)

/-- Leaves the session without a last word; the documents are still written. -/
def abandon (session : Session) (disk : Disk) : Disk :=
  session.history.document.close (session.settings.close disk)

end Session

/-! ## What is on the disk -/

def Icon.find? (disk : Disk) (key : String) : Option String :=
  if Icon.isVirtual key then some (Icon.name ⟨key⟩ true)
  else
    match disk.find ⟨key⟩ with
    | .ok (_, .directory) => some (Icon.name ⟨key⟩ true)
    | .ok (_, .file _) => some (Icon.name ⟨key⟩ false)
    | .error _ => none

/-- Keys that stand for no files count as being there. -/
def Disk.hasLocation (disk : Disk) (key : String) : Bool :=
  Icon.isVirtual key || disk.isThere ⟨key⟩

end Waymark
