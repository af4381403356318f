/-!
# Faults

Why a document gives no value.
-/

namespace Waymark.Json

inductive Fault where
  | malformed
  | truncated
  | mismatched
  deriving DecidableEq

/-- A broken part of a document may fail in one way where its value is read and in another where
it is skipped. -/
structure Break where
  read : Fault
  skipped : Fault
  deriving DecidableEq

def Break.both (fault : Fault) : Break :=
  ⟨fault, fault⟩

end Waymark.Json
