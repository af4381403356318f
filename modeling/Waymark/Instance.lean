import Waymark.Layout
import Waymark.Settings
/-!
# Settings of an instance

Each named window has a small document of its own, which records the name.
-/

namespace Waymark.Instance

def schema : Schema :=
  [⟨"instanceName", .text none⟩,
   ⟨"notifyOnFolderEvents", .yesNo true⟩,
   ⟨"thumbnailsSize", .number 96 16 512⟩]

def name? (bag : Bag) : Option String :=
  bag.get? Json.Decoder.text "instanceName"

def notifiesOnFolderEvents (bag : Bag) : Bool :=
  match schema.get? bag "notifyOnFolderEvents" with
  | some (.boolean value) => value
  | _ => true

def thumbnailsSize (bag : Bag) : Int :=
  match schema.get? bag "thumbnailsSize" with
  | some (.number (.integer value)) => value
  | _ => 96

def «open» (disk : Disk) (layout : Layout) (name : String) (hasWriter : Bool) :
    Except Failure (Document × Disk) := do
  let document := Document.open disk (← layout.instanceSettings name) hasWriter
  if (name? document.bag).isSome then .ok (document, disk)
  else
    match document.set "instanceName" (.string name) with
    | (document, true) => .ok (document.saveSoon disk)
    | (document, false) => .ok (document, disk)

end Waymark.Instance
