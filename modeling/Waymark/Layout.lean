import Waymark.Failure
/-!
# Where the documents lie

The settings, the history and the settings of instances lie in one configuration directory.
-/

namespace Waymark

structure Layout where
  directory : Path
  deriving DecidableEq

structure Surroundings where
  configuration : Option String
  sharedConfiguration : Option String
  home : Option String
  accountHome : String

namespace Layout

def settings (layout : Layout) : Path :=
  layout.directory.child "globalSettings.json"

def history (layout : Layout) : Path :=
  layout.directory.child "globalHistory.json"

def instances (layout : Layout) : Path :=
  layout.directory.child "instances"

def shared (surroundings : Surroundings) : Path :=
  let home : Path := ⟨match surroundings.home with
    | some home => if home.isEmpty then surroundings.accountHome else home
    | none => surroundings.accountHome⟩
  match surroundings.sharedConfiguration with
  | some directory => if (Path.mk directory).isAbsolute then ⟨directory⟩ else home.child ".config"
  | none => home.child ".config"

def of (surroundings : Surroundings) : Layout :=
  match surroundings.configuration with
  | some directory =>
      if directory.isEmpty then ⟨(shared surroundings).child "shellbat"⟩ else ⟨⟨directory⟩⟩
  | none => ⟨(shared surroundings).child "shellbat"⟩

def isInstanceName (name : String) : Bool :=
  !name.isEmpty && name ≠ "." && name ≠ ".." &&
    name.toList.all fun c => c ≠ '/' && c ≠ '\\' && c ≠ ':'

def instanceSettings (layout : Layout) (name : String) : Except Failure Path :=
  if isInstanceName name then .ok (layout.instances.child (name ++ ".json"))
  else .error (.invalidPath ⟨name⟩)

end Layout
end Waymark
