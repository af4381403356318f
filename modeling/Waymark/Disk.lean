import Waymark.Failure
/-!
# Disks

A disk is a tree of directories and files. A place lists the names from the innermost directory
outwards, so that the place of the root is empty; every node but the root is listed.
-/

namespace Waymark

abbrev Place :=
  List String

inductive Node where
  | directory
  | file (contents : ByteArray)

structure Disk where
  nodes : List (Place × Node)
  /-- The working directory, from which relative paths lead. -/
  here : Place

namespace Disk

def node? (disk : Disk) (place : Place) : Option Node :=
  if place = [] then some .directory
  else (disk.nodes.find? fun entry => entry.1 = place).map Prod.snd

def erase (disk : Disk) (place : Place) : Disk :=
  { disk with nodes := disk.nodes.filter fun entry => entry.1 ≠ place }

def put (disk : Disk) (place : Place) (node : Node) : Disk :=
  { disk with nodes := (place, node) :: (disk.erase place).nodes }

def isDirectoryAt (disk : Disk) (place : Place) : Bool :=
  match disk.node? place with
  | some .directory => true
  | _ => false

def children (disk : Disk) (place : Place) : List (String × Node) :=
  disk.nodes.filterMap fun
    | (name :: parent, node) => if parent = place then some (name, node) else none
    | ([], _) => none

/-! ## From paths to places -/

structure Route where
  start : Place
  names : List String
  endsInSlash : Bool

def route (disk : Disk) (path : Path) : Except IoFault Route :=
  let text := path.text.toList
  if text.contains '\x00' then .error .invalidInput
  else if text.isEmpty then .error .notFound
  else if 4096 ≤ path.text.utf8ByteSize then .error .invalidFilename
  else .ok
    { start := if path.isAbsolute then [] else disk.here
      names := ((Path.split text).filter fun part => !part.isEmpty).map String.ofList
      endsInSlash := text.getLast? = some '/' }

def enter (disk : Disk) (place : Place) : Except IoFault Unit :=
  match disk.node? place with
  | none => .error .notFound
  | some (.file _) => .error .notADirectory
  | some .directory => .ok ()

def isDots (name : String) : Bool :=
  name = "." || name = ".."

def follow (place : Place) (name : String) : Except IoFault Place :=
  if name = "." then .ok place
  else if name = ".." then .ok place.tail
  else if 255 < name.utf8ByteSize then .error .invalidFilename
  else .ok (name :: place)

def walk (disk : Disk) (place : Place) : List String → Except IoFault Place
  | [] => .ok place
  | name :: names => do
      disk.enter place
      walk disk (← follow place name) names

def find (disk : Disk) (path : Path) : Except IoFault (Place × Node) := do
  let route ← disk.route path
  let place ← disk.walk route.start route.names
  match disk.node? place with
  | none => .error .notFound
  | some .directory => .ok (place, .directory)
  | some (.file contents) =>
      if route.endsInSlash then .error .notADirectory else .ok (place, .file contents)

/-- Where a path lets something be made: a directory and a name in it, which is missing when the
path ends in dots or is the root. -/
structure Slot where
  directory : Place
  name : Option String
  endsInSlash : Bool

def Slot.place? (slot : Slot) : Except IoFault (Option Place) :=
  match slot.name with
  | none => .ok none
  | some name => (follow slot.directory name).map some

def slot (disk : Disk) (path : Path) : Except IoFault Slot := do
  let route ← disk.route path
  match route.names.getLast? with
  | none => .ok ⟨[], none, true⟩
  | some name =>
      let directory ← disk.walk route.start route.names.dropLast
      disk.enter directory
      .ok ⟨directory, if isDots name then none else some name, route.endsInSlash⟩

/-! ## Requests -/

def isThere (disk : Disk) (path : Path) : Bool :=
  (disk.find path).isOk

def isFile (disk : Disk) (path : Path) : Bool :=
  match disk.find path with
  | .ok (_, .file _) => true
  | _ => false

def isDirectory (disk : Disk) (path : Path) : Bool :=
  match disk.find path with
  | .ok (_, .directory) => true
  | _ => false

def contents (disk : Disk) (path : Path) : Except IoFault ByteArray := do
  match ← disk.find path with
  | (_, .file contents) => .ok contents
  | (_, .directory) => .error .isADirectory

def makeDirectory (disk : Disk) (path : Path) : Except IoFault Disk := do
  let slot ← disk.slot path
  match ← slot.place? with
  | none => .error .alreadyExists
  | some place =>
      match disk.node? place with
      | some _ => .error .alreadyExists
      | none => .ok (disk.put place .directory)

/-- The place of the file that a request to write to a path opens. A path that ends in a slash
stands for a directory, whatever its last name is. -/
def fileToWrite (disk : Disk) (path : Path) : Except IoFault Place := do
  let slot ← disk.slot path
  if slot.endsInSlash then .error .isADirectory
  else
    match ← slot.place? with
    | none => .error .isADirectory
    | some place => if disk.isDirectoryAt place then .error .isADirectory else .ok place

def write (disk : Disk) (path : Path) (contents : ByteArray) : Except IoFault Disk :=
  (disk.fileToWrite path).map fun place => disk.put place (.file contents)

def remove (disk : Disk) (path : Path) : Except IoFault Disk := do
  match ← disk.find path with
  | (place, .file _) => .ok (disk.erase place)
  | (_, .directory) => .error .isADirectory

def rename (disk : Disk) (source : Place) (path : Path) : Except IoFault Disk := do
  let slot ← disk.slot path
  match ← slot.place?, disk.node? source with
  | none, _ => .error .resourceBusy
  | _, none => .error .notFound
  | some target, some node =>
      if slot.endsInSlash then .error .notADirectory
      else if disk.isDirectoryAt target then .error .isADirectory
      else .ok ((disk.erase source).put target node)

def copy (disk : Disk) (source target : Path) : Except IoFault Disk := do
  match ← disk.find source with
  | (_, .directory) => .error .invalidInput
  | (place, .file contents) =>
      let goal ← disk.fileToWrite target
      .ok (disk.put goal (.file (if goal = place then .empty else contents)))

def pathOf (place : Place) : Path :=
  ⟨String.ofList ('/' :: Path.unsplit (place.reverse.map String.toList))⟩

def canonical (disk : Disk) (path : Path) : Except IoFault Path :=
  (disk.find path).map fun found => pathOf found.1

/-- A path and its ancestors, the longest first, down to the last one that has a parent. -/
def lineage : Nat → Path → List Path
  | 0, _ => []
  | depth + 1, path =>
      match path.parent? with
      | some parent => path :: lineage depth parent
      | none => []

def orThere (disk : Disk) (path : Path) (fault : IoFault) : Except IoFault Unit :=
  if disk.isDirectory path then .ok () else .error fault

/-- How the making of directories went: the states of the disk that it went through, the latest
first, and the state in which it left the disk. -/
structure Making where
  passed : List Disk
  disk : Disk
  result : Except IoFault Unit

/-- Which requests to make a directory fail for a reason of their own. Another request for the same
directory follows once its ancestors are made. -/
abbrev Refusals :=
  Path → (isAgain : Bool) → Option IoFault

def tryDirectory (refusals : Refusals) (disk : Disk) (path : Path) (isAgain : Bool) :
    Except IoFault Disk :=
  match refusals path isAgain with
  | some fault => .error fault
  | none => disk.makeDirectory path

/-- Makes the first of some paths, after its ancestors if they are missing. What was made stays
when a later directory cannot be made. -/
def makeLineage (refusals : Refusals) (disk : Disk) : List Path → Making
  | [] => ⟨[], disk, .ok ()⟩
  | path :: ancestors =>
      match disk.tryDirectory refusals path false with
      | .ok made => ⟨[disk], made, .ok ()⟩
      | .error .notFound =>
          let above := makeLineage refusals disk ancestors
          match above.result with
          | .error _ => above
          | .ok () =>
              match above.disk.tryDirectory refusals path true with
              | .ok complete => ⟨above.disk :: above.passed, complete, .ok ()⟩
              | .error fault => { above with result := above.disk.orThere path fault }
      | .error fault => ⟨[], disk, disk.orThere path fault⟩

def making (refusals : Refusals) (disk : Disk) (path : Path) : Making :=
  disk.makeLineage refusals (lineage (path.text.length + 1) path)

def makeDirectories (disk : Disk) (path : Path) : Disk × Except IoFault Unit :=
  let making := disk.making (fun _ _ => none) path
  (making.disk, making.result)

end Disk
end Waymark
