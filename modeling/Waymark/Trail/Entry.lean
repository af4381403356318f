import Waymark.Calendar.Instant
import Waymark.Location
/-!
# Entries of a trail

An entry keeps the last visit to a location. Visits at the same instant are told apart by the
sequence in which they were made.
-/

namespace Waymark

structure Entry where
  key : String
  name : String
  icon : Option String
  visited : Instant
  sequence : Nat
  deriving DecidableEq

namespace Entry

def ofVisit (location : Location) (icon : Option String) (now : Instant) (sequence : Nat) : Entry :=
  ⟨location.key, location.name, icon, now, sequence⟩

/-- A further visit keeps the spelling of the key, and the icon if there is one. -/
def visit (entry : Entry) (name : String) (icon : Option String) (now : Instant) (sequence : Nat) :
    Entry :=
  { entry with name, icon := entry.icon.or icon, visited := now, sequence }

def Later (a b : Entry) : Prop :=
  b.visited < a.visited ∨ a.visited = b.visited ∧ b.sequence < a.sequence

instance (a b : Entry) : Decidable (a.Later b) :=
  inferInstanceAs (Decidable (_ ∨ _))

def sort (entries : List Entry) : List Entry :=
  entries.mergeSort fun a b => !decide (b.Later a)

end Entry
end Waymark
