import Waymark.Calendar.Date
/-!
# Instants

Moments of universal time. A leap second is the second before it with a thousand million
nanoseconds more.
-/

namespace Waymark

structure Instant where
  seconds : Int
  nanos : Nat
  deriving DecidableEq

namespace Instant

def epoch : Instant :=
  ⟨0, 0⟩

def Before (a b : Instant) : Prop :=
  a.seconds < b.seconds ∨ a.seconds = b.seconds ∧ a.nanos < b.nanos

instance : LT Instant :=
  ⟨Before⟩

instance (a b : Instant) : Decidable (a < b) :=
  inferInstanceAs (Decidable (_ ∨ _))

def dayNumber (instant : Instant) : Int :=
  instant.seconds.fdiv 86400

def date (instant : Instant) : Date :=
  .ofNumber instant.dayNumber

def secondOfDay (instant : Instant) : Nat :=
  (instant.seconds - instant.dayNumber * 86400).toNat

/-- A second of a valid date, from 0 to 59, or 60 for a leap second. -/
def ofDate (date : Date) (hour minute second nanos : Nat) : Instant :=
  let leap := second = 60
  let inDay := hour * 3600 + minute * 60 + (if leap then 59 else second)
  ⟨date.number * 86400 + inDay, if leap then nanos + 1000000000 else nanos⟩

def inCalendar (instant : Instant) : Bool :=
  instant.date.Valid

def addNanos (instant : Instant) (nanos : Nat) : Instant :=
  let total := instant.nanos + nanos
  ⟨instant.seconds + (total / 1000000000 : Nat), total % 1000000000⟩

end Instant
end Waymark
