import Waymark.Calendar.Written
import Waymark.Disk.Replace
/-!
# Backups

A backup is a copy of a document in a directory beside it. Its name begins with the date and a
tick; ticks follow the clock but never repeat. Backups beyond an age are removed.
-/

namespace Waymark

structure Ticker where
  last : Int
  deriving DecidableEq

namespace Ticker

def propose (clock last : Int) : Int :=
  max clock (last + 1)

/-- Takes a proposal if the last tick is still the one that it was made from. -/
def exchange (ticker : Ticker) (seen proposal : Int) : Option Ticker :=
  if ticker.last = seen then some ⟨proposal⟩ else none

def next (ticker : Ticker) (clock : Int) : Ticker × Int :=
  let tick := propose clock ticker.last
  (⟨tick⟩, tick)

end Ticker

namespace Instant

def milliseconds (instant : Instant) : Int :=
  instant.seconds * 1000 + (instant.nanos / 1000000 : Nat)

end Instant

namespace Backup

def directory? (path : Path) : Option Path := do
  let stem ← path.stem?
  let parent ← path.parent?
  some (parent.child (stem ++ ".bak"))

def date? (name : String) : Option Date :=
  let name := name.toList
  if name.contains '.' then Date.ofUnderscored? (name.takeWhile (· ≠ '.')) else none

def name (date : Date) (tick : Int) (stem : String) : String :=
  String.ofList date.underscored ++ "." ++ toString tick ++ "." ++ stem ++ ".json"

/-- A day in nanoseconds, in which ages are counted. -/
def day : Int :=
  86400000000000

def isExpired (today : Date) (maximumAge : Int) (name : String) : Bool :=
  match date? name with
  | some date => maximumAge < (today.number - date.number) * day
  | none => false

/-- What goes wrong while old backups are removed: the directory is not listed, or some of its files
are not removed. -/
structure Hindrance where
  listing : Option IoFault
  removal : String → Option IoFault

def noHindrance : Hindrance :=
  ⟨none, fun _ => none⟩

/-- The names of the old backups in a directory, but for those that stay all the same. -/
def removable (hindrance : Hindrance) (disk : Disk) (today : Date) (maximumAge : Int)
    (directory : Place) (kept : String) : List String :=
  (disk.children directory).filterMap fun
    | (_, .directory) => none
    | (name, .file _) =>
        if name ≠ kept && isExpired today maximumAge name && (hindrance.removal name).isNone then
          some name
        else none

def removeAll (disk : Disk) (directory : Place) (names : List String) : Disk :=
  names.foldl (fun disk name => disk.erase (name :: directory)) disk

def prune (hindrance : Hindrance) (disk : Disk) (today : Date) (maximumAge : Int)
    (directory : Path) (kept : String) : Disk × Except Failure Nat :=
  match hindrance.listing, disk.find directory with
  | some fault, _ => (disk, .error (.io fault))
  | none, .error fault => (disk, .error (.io fault))
  | none, .ok (_, .file _) => (disk, .error (.io .notADirectory))
  | none, .ok (place, .directory) =>
      let names := removable hindrance disk today maximumAge place kept
      (removeAll disk place names, .ok names.length)

/-- Backs up a document, unless the age is negative or there is no such file. A copy that was made
counts, whether or not the old ones are removed. -/
def makeDespite (hindrance : Hindrance) (disk : Disk) (ticker : Ticker) (today : Date) (clock : Int)
    (path : Path) (maximumAge : Int) : Disk × Ticker × Except Failure (Option Path) :=
  if maximumAge < 0 || !disk.isFile path then (disk, ticker, .ok none)
  else
    match path.stem?, directory? path with
    | some stem, some directory =>
        let (ticker, tick) := ticker.next clock
        let file := name today tick stem
        let target := directory.child file
        match disk.copyFile path target with
        | (disk, .error failure) => (disk, ticker, .error failure)
        | (disk, .ok ()) =>
            match prune hindrance disk today maximumAge directory file with
            | (disk, .ok _) => (disk, ticker, .ok (some target))
            | (disk, .error _) => (disk, ticker, .ok (some target))
    | _, _ => (disk, ticker, .error (.invalidPath path))

def make (disk : Disk) (ticker : Ticker) (now : Instant) (path : Path) (maximumDays : Int) :
    Disk × Ticker × Except Failure (Option Path) :=
  makeDespite noHindrance disk ticker now.date now.milliseconds path (maximumDays * day)

end Backup
end Waymark
