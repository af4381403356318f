import Waymark.Path
/-!
# Locations

A location has a key and a name to show. A placeholder stands for one that is not there yet.
-/

namespace Waymark

structure Location where
  key : String
  name : String
  isPlaceholder : Bool
  deriving DecidableEq

namespace Location

def named (key name : String) : Location :=
  ⟨key, name, false⟩

def placeholder (key : String) : Location :=
  ⟨key, key, true⟩

def ofPath (path : Path) : Location :=
  named path.text (path.fileName?.getD path.text)

def isRecordable (location : Location) : Bool :=
  !location.isPlaceholder && !location.key.isEmpty

end Location
end Waymark
