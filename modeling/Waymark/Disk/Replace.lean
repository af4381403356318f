import Waymark.Disk
import Waymark.Retry
/-!
# Replacing files

A file is replaced in one step, so that whoever reads it finds the old contents or the new ones:
they are written to a temporary file beside it, which then takes its place.
-/

namespace Waymark.Disk

def directoryOf (path : Path) : Except Failure Path :=
  match path.parent? with
  | none => .error (.invalidPath path)
  | some parent => .ok (if parent.text.isEmpty then ⟨"."⟩ else parent)

def contents? (disk : Disk) (path : Path) : Except Failure (Option ByteArray) :=
  let outcome := match disk.contents path with
    | .ok contents => .ok (some contents)
    | .error .notFound => .ok none
    | .error fault => .error fault
  match (Retry.run fun _ => outcome).2 with
  | .ok contents => .ok contents
  | .error fault => .error (.io fault)

inductive Step where
  | makeDirectory (path : Path) (isAgain : Bool)
  | makeTemporary
  | fill
  | secure
  | rename (attempt : Nat)
  deriving DecidableEq

/-- Steps that fail for a reason of their own. -/
abbrev Trouble :=
  Step → Option IoFault

def noTrouble : Trouble :=
  fun _ => none

/-- What befalls a request: its trouble, the names that are tried for the temporary file, and what
this holds at times while it is filled. -/
structure Circumstances where
  trouble : Trouble
  names : List String
  portions : List ByteArray

def temporaryNames : List String :=
  (List.range 10).map fun number => ".tmp00000" ++ toString number

/-- How a request went: the states of the disk that it went through, the latest first, and the
state in which it left the disk. -/
structure Course where
  passed : List Disk
  disk : Disk
  result : Except Failure Unit
  /-- How often it tried to rename the temporary file. -/
  renames : Nat

/-- The temporary file gets the first of its names that nothing has yet. -/
def temporaryPlace (names : List String) (disk : Disk) (directory : Path) :
    Except IoFault Place := do
  let slot ← disk.slot (((pathOf disk.here).join directory).child ".tmp000000")
  match (names.map (· :: slot.directory)).find? fun place => (disk.node? place).isNone with
  | some place => .ok place
  | none => .error .alreadyExists

def guard (trouble : Trouble) (step : Step) : Except IoFault Unit :=
  match trouble step with
  | some fault => .error fault
  | none => .ok ()

def renameAttempts (trouble : Trouble) (disk : Disk) (source : Place) (path : Path) :
    Nat × Except IoFault Disk :=
  Retry.run fun attempt => do
    guard trouble (.rename attempt)
    disk.rename source path

/-- Fills a temporary file and has it take its place. It is removed when that fails. -/
def replaceFrom (amid : Circumstances) (disk : Disk) (source : Place) (path : Path)
    (contents : ByteArray) : Course :=
  let holding (contents : ByteArray) := disk.put source (.file contents)
  let filling := amid.portions.map holding ++ [holding .empty]
  let filled := holding contents
  match amid.trouble .fill, amid.trouble .secure with
  | some fault, _ => ⟨filling, filled.erase source, .error (.io fault), 0⟩
  | none, some fault => ⟨filled :: filling, filled.erase source, .error (.io fault), 0⟩
  | none, none =>
      match renameAttempts amid.trouble filled source path with
      | (renames, .ok replaced) => ⟨filled :: filling, replaced, .ok (), renames⟩
      | (renames, .error fault) =>
          ⟨filled :: filling, filled.erase source, .error (.persist path fault), renames⟩

def replaceAmid (amid : Circumstances) (disk : Disk) (path : Path) (contents : ByteArray) :
    Course :=
  match directoryOf path with
  | .error failure => ⟨[], disk, .error failure, 0⟩
  | .ok directory =>
      let making := disk.making (amid.trouble <| .makeDirectory · ·) directory
      match making.result with
      | .error fault => ⟨making.passed, making.disk, .error (.io fault), 0⟩
      | .ok () =>
          match guard amid.trouble .makeTemporary,
            making.disk.temporaryPlace amid.names directory with
          | .error fault, _ => ⟨making.passed, making.disk, .error (.io fault), 0⟩
          | .ok (), .error fault => ⟨making.passed, making.disk, .error (.io fault), 0⟩
          | .ok (), .ok source =>
              let course := replaceFrom amid making.disk source path contents
              { course with passed := course.passed ++ making.disk :: making.passed }

def replaceCourse (trouble : Trouble) (disk : Disk) (path : Path) (contents : ByteArray) :
    Course :=
  disk.replaceAmid ⟨trouble, temporaryNames, []⟩ path contents

def replace (disk : Disk) (path : Path) (contents : ByteArray) : Disk × Except Failure Unit :=
  let course := replaceCourse noTrouble disk path contents
  (course.disk, course.result)

def copyFile (disk : Disk) (source target : Path) : Disk × Except Failure Unit :=
  match directoryOf target with
  | .error failure => (disk, .error failure)
  | .ok directory =>
      match disk.makeDirectories directory with
      | (made, .error fault) => (made, .error (.io fault))
      | (made, .ok ()) =>
          match (Retry.run fun _ => made.copy source target).2 with
          | .ok copied => (copied, .ok ())
          | .error fault => (made, .error (.io fault))

end Waymark.Disk
