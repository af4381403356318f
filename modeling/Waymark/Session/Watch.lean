import Waymark.Session
/-!
# Watching the settings

When other programs change the settings, a session reads them again as soon as the file has been
left alone for a while.
-/

namespace Waymark

structure Watch where
  deadline : Option Nat
  deriving DecidableEq

namespace Watch

def calm : Nat :=
  100

def notice (watch : Watch) (layout : Layout) (name : String) (now : Nat) : Watch :=
  if layout.settings.fileName? = some name then ⟨some (now + calm)⟩ else watch

end Watch

namespace Session

/-- Reads the settings again. What changes is told to the window, which has room for it. -/
def refresh (session : Session) (disk : Disk) : Session :=
  match session.settings.reload disk with
  | (settings, []) => { session with settings }
  | (settings, changed) =>
      { session with
        settings
        history := session.history.setLimit (Settings.maximumHistoryEntries settings.bag)
        events := session.events ++ [.settings changed] }

def wake (session : Session) (disk : Disk) (watch : Watch) (now : Nat) : Session × Watch :=
  match watch.deadline with
  | some deadline =>
      if deadline < now then (session.refresh disk, ⟨none⟩) else (session, watch)
  | none => (session, watch)

end Session
end Waymark
