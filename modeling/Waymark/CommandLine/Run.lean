import Waymark.CommandLine
import Waymark.Instance
import Waymark.Session
/-!
# Running commands

A command opens a session, does its work, prints lines and closes the session. One that fails
says why and leaves the session at once.
-/

namespace Waymark.CommandLine

structure Complaint where
  message : String
  cause : Option String
  deriving DecidableEq

namespace Complaint

def text (complaint : Complaint) : String :=
  "Error: " ++ complaint.message ++
    match complaint.cause with
    | some cause => "\n\nCaused by:\n    " ++ cause
    | none => ""

def ofFailure : Failure → Complaint
  | .invalidPath path => ⟨Failure.invalidPathMessage path, none⟩
  | .invalidValue property value => ⟨Failure.invalidValueMessage property value, none⟩
  | .persist path _ => ⟨"Failed to replace " ++ Text.quoted path.text, none⟩
  | .io _ => ⟨"IO error", none⟩
  | .json _ => ⟨"JSON error", none⟩

end Complaint

structure Report where
  disk : Disk
  lines : List String
  complaint : Option Complaint

def timeText (instant : Instant) : String :=
  String.ofList (instant.date.dashed ++ ' ' :: instant.clockText)

def historyLines (trail : Trail) : List String :=
  trail.entries.mapIdx fun place entry =>
    (if trail.cursor = some place then "* " else "  ") ++ timeText entry.visited ++ "  " ++
      entry.key ++ "\t" ++ entry.name

def moveLine : Option Entry → String
  | some entry => entry.key
  | none => "Already at the end of the history"

def removedLine (count : Nat) : String :=
  "Removed " ++ toString count ++ " history entries"

def rowLine (row : Row) : String :=
  let origin := match row.declaration, row.isDefault with
    | none, _ => " (custom)"
    | some _, true => " (default)"
    | some _, false => ""
  row.name ++ " = " ++ row.value.compact ++ origin

def locationOf (disk : Disk) (path : Path) : Location :=
  .ofPath ((disk.canonical path).toOption.getD path)

def act (schema : Schema) (document : Document) (disk : Disk) :
    Action → Document × Disk × Except Complaint (List String)
  | .list => (document, disk, .ok ((schema.rows document.bag).map rowLine))
  | .get name =>
      match schema.get? document.bag name with
      | some value => (document, disk, .ok [value.compact])
      | none => (document, disk, .error ⟨"Unknown setting: " ++ name, none⟩)
  | .set name value =>
      match Document.assign schema document disk name value with
      | (document, disk, .ok _) => (document, disk, .ok [])
      | (document, disk, .error failure) => (document, disk, .error (.ofFailure failure))

/-- The documents have writers, which write whatever is pending at the end. -/
def finish (session : Session) (disk : Disk) (lines : List String) : Report :=
  ⟨(session.shutDown disk 0).1, lines, none⟩

def fail (session : Session) (disk : Disk) (complaint : Complaint) : Report :=
  ⟨session.abandon disk, [], some complaint⟩

def actOnSession (session : Session) (disk : Disk) (action : Action) : Report :=
  match act Settings.schema session.settings disk action with
  | (settings, disk, .ok lines) => finish { session with settings } disk lines
  | (settings, disk, .error complaint) => fail { session with settings } disk complaint

def actOnInstance (session : Session) (disk : Disk) (name : String) (action : Action) : Report :=
  match Instance.open disk session.layout name true with
  | .error failure =>
      fail session disk
        ⟨"Invalid instance name: " ++ name, some (Complaint.ofFailure failure).message⟩
  | .ok (document, disk) =>
      match act Instance.schema document disk action with
      | (document, disk, .ok lines) =>
          let (document, disk, _) := document.flush disk 0
          finish session (document.close disk) lines
      | (document, disk, .error complaint) => fail session (document.close disk) complaint

def perform (session : Session) (surface : Surface) : Command → Report
  | .history => finish session surface.disk (historyLines session.history.trail)
  | .visit path name =>
      let location := locationOf surface.disk path
      let location := { location with name := name.getD location.name }
      let icon := if session.history.awaitsIcon location
        then Icon.find? surface.disk location.key else none
      let (session, disk, visited) := session.visit surface.disk location icon surface.now
      finish session disk (if visited then [] else ["Nothing recorded for " ++ location.key])
  | .back step =>
      let (session, entry) := session.back step
      finish session surface.disk [moveLine entry]
  | .forward step =>
      let (session, entry) := session.forward step
      finish session surface.disk [moveLine entry]
  | .forget root =>
      let (session, disk, removed) := session.forget surface.disk root
      finish session disk
        [(if removed then "Removed entries under " else "No entries under ") ++ root]
  | .prune =>
      let before := session.history.trail.entries.length
      let (session, disk, _) := session.prune surface.disk surface.disk.hasLocation
      finish session disk [removedLine (before - session.history.trail.entries.length)]
  | .clear =>
      let (session, disk, count) := session.clear surface.disk
      finish session disk [removedLine count]
  | .favorites =>
      finish session surface.disk
        ((Settings.favorites session.settings.bag).map fun favorite =>
          favorite.key ++ "\t" ++ favorite.name)
  | .favorite path =>
      let location := locationOf surface.disk path
      let icon := if session.favoriteAwaitsIcon location
        then Icon.find? surface.disk location.key else none
      let (session, disk, toggle) := session.toggleFavorite surface.disk location icon
      finish session disk [match toggle with
        | .added => "Added " ++ location.key ++ " to favorites"
        | .removed => "Removed " ++ location.key ++ " from favorites"]
  | .settings none action => actOnSession session surface.disk action
  | .settings (some name) action => actOnInstance session surface.disk name action
  | .backup =>
      let (surface, made) := session.backUp surface
      finish session surface.disk
        (if made.isEmpty then ["Nothing backed up"] else made.map Path.text)

def run (disk : Disk) (now : Instant) (layout : Layout) (command : Command) : Report :=
  let (session, surface) := Session.open ⟨disk, ⟨0⟩, now⟩ layout
  perform session surface command

def versionLine : String :=
  "shellbat 0.1.0"

structure Outcome where
  disk : Disk
  code : Nat
  lines : List String
  complaint : Option String

def start (disk : Disk) (now : Instant) (surroundings : Surroundings) (arguments : List String) :
    Outcome :=
  match parse surroundings arguments with
  | .error .usage => ⟨disk, 2, [], none⟩
  | .error _ => ⟨disk, 0, [], none⟩
  | .ok .version => ⟨disk, 0, [versionLine], none⟩
  | .ok (.run layout command) =>
      let report := run disk now layout command
      ⟨report.disk, if report.complaint.isSome then 1 else 0, report.lines,
        report.complaint.map Complaint.text⟩

end Waymark.CommandLine
