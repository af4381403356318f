import Std.Time.DateTime.Timestamp
import Waymark.CommandLine.Run
/-!
# The program

A command runs on a picture of the parts of the disk that it looks at. What it changes there is
then carried out.
-/

namespace Waymark.Program

def surroundings : IO Surroundings :=
  return ⟨← IO.getEnv "SHELLBAT_CONFIG_DIR", ← IO.getEnv "XDG_CONFIG_HOME", ← IO.getEnv "HOME", "/"⟩

def now : IO Instant :=
  return Instant.epoch.addNanos
    (← Std.Time.Timestamp.now).toNanosecondsSinceUnixEpoch.val.toNat

/-! ## The picture -/

def node? (withContents : Bool) (place : Place) : IO (Option Node) := do
  let path := (← IO.currentDir) / (Disk.pathOf place).text
  try
    match (← path.metadata).type with
    | .dir => return some .directory
    | _ => return some (.file (← if withContents then IO.FS.readBinFile path else pure .empty))
  catch _ => return none

def add (withContents : Bool) (disk : Disk) (place : Place) : IO Disk := do
  if (disk.node? place).isSome then return disk
  match ← node? withContents place with
  | some node => return disk.put place node
  | none => return disk

def addPath (withContents : Bool) (disk : Disk) (path : Path) : IO Disk := do
  let .ok route := disk.route path | return disk
  let (disk, _) ← route.names.foldlM (fun (disk, place) name => do
    let .ok place := Disk.follow place name | return (disk, place)
    return (← add withContents disk place, place)) (disk, route.start)
  return disk

def addDocument (disk : Disk) (path : Path) : IO Disk := do
  let disk ← addPath true disk path
  let some backups := Backup.directory? path | return disk
  let disk ← addPath false disk backups
  let .ok (place, .directory) := disk.find backups | return disk
  let directory := (← IO.currentDir) / (Disk.pathOf place).text
  (← directory.readDir).foldlM (fun disk entry => add false disk (entry.fileName :: place)) disk

def workingDirectory : IO Disk := do
  let path := (← IO.currentDir).toString
  let bare : Disk := ⟨[], []⟩
  match bare.route ⟨path⟩ with
  | .ok route => return { ← addPath false bare ⟨path⟩ with here := route.names.reverse }
  | .error _ => return bare

def documents (layout : Layout) : Command → List Path
  | .settings (some name) _ =>
      layout.settings :: layout.history :: (layout.instanceSettings name).toOption.toList
  | _ => [layout.settings, layout.history]

def places (session : Session) : Command → List Path
  | .visit path _ => [path]
  | .favorite path => [path]
  | .prune =>
      (session.history.trail.entries.map fun entry => ⟨entry.key⟩) ++
        (Settings.favorites session.settings.bag).map fun favorite => ⟨favorite.key⟩
  | _ => []

def picture (now : Instant) (layout : Layout) (command : Command) : IO Disk := do
  let disk ← (documents layout command).foldlM addDocument (← workingDirectory)
  let (session, _) := Session.open ⟨disk, ⟨0⟩, now⟩ layout
  (places session command).foldlM (addPath false) disk

/-! ## The changes -/

def write (path : Path) (contents : ByteArray) : IO Unit := do
  let temporary := path.text ++ ".tmp"
  IO.FS.writeBinFile temporary contents
  IO.FS.rename temporary path.text

def carryOutAt (before after : Disk) (place : Place) : IO Unit := do
  let path := Disk.pathOf place
  match before.node? place, after.node? place with
  | some (.file _), none => IO.FS.removeFile path.text
  | some (.file old), some (.file new) => if old.data ≠ new.data then write path new
  | _, some (.file new) => write path new
  | none, some .directory => IO.FS.createDirAll path.text
  | _, _ => pure ()

/-- Directories come before what they hold, whose places are longer. -/
def carryOut (before after : Disk) : IO Unit := do
  let places := (before.nodes ++ after.nodes).map Prod.fst
  let ordered := places.eraseDups.mergeSort fun a b => a.length ≤ b.length
  ordered.forM (carryOutAt before after)

def conclude (before : Disk) (outcome : CommandLine.Outcome) : IO UInt32 := do
  carryOut before outcome.disk
  outcome.lines.forM fun line => IO.println line
  match outcome.complaint with
  | some complaint => IO.eprintln complaint
  | none => if outcome.code = 2 then IO.eprintln "The arguments are not understood"
  return outcome.code.toUInt32

end Waymark.Program

open Waymark in
def main (arguments : List String) : IO UInt32 := do
  let surroundings ← Program.surroundings
  let now ← Program.now
  let disk ← match CommandLine.parse surroundings arguments with
    | .ok (.run layout command) => Program.picture now layout command
    | _ => pure ⟨[], []⟩
  Program.conclude disk (CommandLine.start disk now surroundings arguments)
