import Waymark.Document
import Waymark.Favorite
import Waymark.Key
import Waymark.Location
import Waymark.Setting
import Waymark.Terminal
import Waymark.Trail
/-!
# Settings

The settings of all windows: declared ones, favorites, shortcuts and terminals, kept in one
document. Whatever changes them also asks for a save.
-/

namespace Waymark

namespace Document

/-- Sets a setting from a text. Nothing is saved yet. -/
def setText (schema : Schema) (document : Document) (name raw : String) :
    Document × Except Failure Bool :=
  match schema.assignment name raw with
  | .error failure => (document, .error failure)
  | .ok (key, value) =>
      let (document, changed) := document.set key value
      (document, .ok changed)

def assign (schema : Schema) (document : Document) (disk : Disk) (name raw : String) :
    Document × Disk × Except Failure Bool :=
  match document.setText schema name raw with
  | (document, .ok true) =>
      let (document, disk, result) := document.save disk soon
      (document, disk, result.map fun _ => true)
  | (document, result) => (document, disk, result)

end Document

inductive Toggle where
  | added
  | removed
  deriving DecidableEq

namespace Settings

def schema : Schema :=
  [⟨"sendErrorReport", .yesNo true⟩,
   ⟨"maximumInstances", .number 10 1 100⟩,
   ⟨"instancesUpdateInterval", .number 5000 100 600000⟩,
   ⟨"backupsMaxDays", .number 30 (-1) 3650⟩,
   ⟨"maximumHistoryEntries", .number 100 10 1000⟩,
   ⟨"closeExitedTerminalProcesses", .yesNo false⟩]

def number (bag : Bag) (name : String) : Int :=
  match schema.get? bag name with
  | some (.number (.integer value)) => value
  | _ => 0

def flag (bag : Bag) (name : String) : Bool :=
  match schema.get? bag name with
  | some (.boolean value) => value
  | _ => false

def sendsErrorReports (bag : Bag) : Bool :=
  flag bag "sendErrorReport"

def maximumInstances (bag : Bag) : Nat :=
  (number bag "maximumInstances").toNat

def instancesUpdateInterval (bag : Bag) : Nat :=
  (number bag "instancesUpdateInterval").toNat

/-- How many days backups are kept; a negative number means that none are made. -/
def backupsMaximumDays (bag : Bag) : Int :=
  number bag "backupsMaxDays"

def maximumHistoryEntries (bag : Bag) : Nat :=
  Trail.clampLimit (number bag "maximumHistoryEntries").toNat

def closesExitedTerminals (bag : Bag) : Bool :=
  flag bag "closeExitedTerminalProcesses"

/-! ## Favorites -/

def favorites (bag : Bag) : List Favorite :=
  (bag.get? (Json.Decoder.list Favorite.decoder) "favorites").getD []

def favoriteIndex? (bag : Bag) (key : String) : Option Nat :=
  (favorites bag).findIdx? fun favorite => Key.same favorite.key key

def favoritesValue (favorites : List Favorite) : Json :=
  .array (favorites.map fun favorite => .ofMembers favorite.members)

def setFavorites (document : Document) (disk : Disk) (favorites : List Favorite) :
    Document × Disk :=
  document.setAndSave disk "favorites" (favoritesValue favorites)

def toggled (favorites : List Favorite) (location : Location) (icon : Option String) :
    List Favorite × Toggle :=
  let isMember (favorite : Favorite) := Key.same favorite.key location.key
  if favorites.any isMember then (favorites.eraseP isMember, .removed)
  else (favorites ++ [⟨location.key, location.name, icon⟩], .added)

def toggleFavorite (document : Document) (disk : Disk) (location : Location)
    (icon : Option String) : Document × Disk × Toggle :=
  let (favorites, toggle) := toggled (favorites document.bag) location icon
  let (document, disk) := setFavorites document disk favorites
  (document, disk, toggle)

def pruneFavorites (document : Document) (disk : Disk) (isThere : String → Bool) :
    Document × Disk × Bool :=
  let favorites := favorites document.bag
  let kept := favorites.filter fun favorite => isThere favorite.key
  if kept.length = favorites.length then (document, disk, false)
  else
    let (document, disk) := setFavorites document disk kept
    (document, disk, true)

/-! ## Shortcuts and terminals -/

def shortcuts (bag : Bag) : List (String × String) :=
  Json.orderMembers
    ((bag.get? (Json.Decoder.mapping Json.Decoder.text) "shortcuts").getD [])

def shortcutsValue (shortcuts : List (String × String)) : Json :=
  .ofMembers (shortcuts.map fun (command, keys) => (command, .string keys))

/-- Binds a command in place of all spellings of it; no keys mean no binding. -/
def bound (shortcuts : List (String × String)) (command keys : String) : List (String × String) :=
  let others := shortcuts.filter fun shortcut => !Key.same shortcut.1 command
  if keys.isEmpty then others else Json.insertMember command keys others

def setShortcut (document : Document) (disk : Disk) (command keys : String) :
    Document × Disk × Bool :=
  let value := shortcutsValue (bound (shortcuts document.bag) command keys)
  match document.set "shortcuts" value with
  | (document, true) =>
      let (document, disk) := document.saveSoon disk
      (document, disk, true)
  | (document, false) => (document, disk, false)

def terminals (bag : Bag) : List Terminal :=
  match (bag.get? (Json.Decoder.list Terminal.decoder) "terminals").getD [] with
  | [] => Terminal.defaults
  | terminals => terminals

def backup (document : Document) (disk : Disk) (ticker : Ticker) (now : Instant) :
    Disk × Ticker × Option Path :=
  document.backup disk ticker now (backupsMaximumDays document.bag)

end Settings
end Waymark
