import Waymark.Json.Fault
import Waymark.Path
import Waymark.Text.Quoted
/-!
# Failures

What can go wrong with documents and the files that hold them.
-/

namespace Waymark

inductive IoFault where
  | notFound
  | alreadyExists
  | notADirectory
  | isADirectory
  | directoryNotEmpty
  | invalidInput
  | invalidFilename
  | resourceBusy
  | wouldBlock
  | other (name : String)
  deriving DecidableEq

inductive Failure where
  | io (fault : IoFault)
  | json (fault : Json.Fault)
  | persist (path : Path) (fault : IoFault)
  | invalidPath (path : Path)
  | invalidValue (property value : String)
  deriving DecidableEq

namespace Failure

def invalidPathMessage (path : Path) : String :=
  "Invalid settings path: " ++ Text.quoted path.text

def invalidValueMessage (property value : String) : String :=
  "Invalid value " ++ Text.quoted value ++ " for property " ++ property

end Failure
end Waymark
