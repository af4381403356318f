import Waymark.Key
import Waymark.Trail.Entry
/-!
# Trails

A trail lists the locations that were visited, the latest first and each one once, and a cursor
walks back to older and forward to newer ones.
-/

namespace Waymark

structure Trail where
  entries : List Entry
  cursor : Option Nat
  limit : Nat
  nextSequence : Nat
  deriving DecidableEq

namespace Trail

def clampLimit (limit : Nat) : Nat :=
  max 10 (min limit 1000)

def empty (limit : Nat) : Trail :=
  ⟨[], none, clampLimit limit, 1⟩

def defaultLimit : Nat :=
  100

/-- A new limit cuts the trail only at the next visit. -/
def setLimit (trail : Trail) (limit : Nat) : Trail :=
  { trail with limit := clampLimit limit }

def current? (trail : Trail) : Option Entry :=
  trail.cursor.bind fun place => trail.entries[place]?

def previous? (trail : Trail) : Option Entry :=
  trail.cursor.bind fun place => trail.entries[place + 1]?

def next? (trail : Trail) : Option Entry :=
  trail.cursor.bind fun place => if place = 0 then none else trail.entries[place - 1]?

def find? (trail : Trail) (key : String) : Option Entry :=
  trail.entries.find? fun entry => Key.same entry.key key

def needsIcon (trail : Trail) (key : String) : Bool :=
  match trail.find? key with
  | some entry => entry.icon.isNone
  | none => true

def upsert (key : String) (change : Entry → Entry) (new : Entry) : List Entry → List Entry
  | [] => [new]
  | entry :: entries =>
      if Key.same entry.key key then change entry :: entries
      else entry :: upsert key change new entries

def visit (trail : Trail) (location : Location) (icon : Option String) (now : Instant) :
    Trail × Bool :=
  if location.isRecordable then
    let sequence := trail.nextSequence
    let visited := upsert location.key (·.visit location.name icon now sequence)
      (.ofVisit location icon now sequence) trail.entries
    ({ trail with
        entries := (Entry.sort visited).take trail.limit
        cursor := some 0
        nextSequence := sequence + 1 }, true)
  else (trail, false)

def moveTo (trail : Trail) (place target : Nat) : Trail × Option Entry :=
  if target = place then (trail, none)
  else ({ trail with cursor := some target }, trail.entries[target]?)

def back (trail : Trail) (step : Nat) : Trail × Option Entry :=
  match trail.cursor with
  | none => (trail, none)
  | some place => trail.moveTo place (min (place + step) (trail.entries.length - 1))

def forward (trail : Trail) (step : Nat) : Trail × Option Entry :=
  match trail.cursor with
  | none => (trail, none)
  | some place => trail.moveTo place (place - step)

def clampCursor (cursor : Option Nat) (length : Nat) : Option Nat :=
  if length = 0 then none else some (min (cursor.getD 0) (length - 1))

/-- The cursor keeps its place in the list and not its entry. -/
def withEntries (trail : Trail) (entries : List Entry) : Trail × Bool :=
  if entries.length = trail.entries.length then (trail, false)
  else ({ trail with entries, cursor := clampCursor trail.cursor entries.length }, true)

def removeKey (trail : Trail) (key : String) : Trail × Bool :=
  trail.withEntries (trail.entries.eraseP fun entry => Key.same entry.key key)

def removeUnder (trail : Trail) (root : String) : Trail × Bool :=
  trail.withEntries (trail.entries.filter fun entry => !Key.isAtOrUnder entry.key root)

def prune (trail : Trail) (isThere : String → Bool) : Trail × Bool :=
  trail.withEntries (trail.entries.filter fun entry => isThere entry.key)

def clear (trail : Trail) : Trail × Nat :=
  ({ trail with entries := [], cursor := none }, trail.entries.length)

/-- Earlier entries of a list count as later visits. -/
def numbered : List Entry → List Entry
  | [] => []
  | entry :: entries => { entry with sequence := entries.length + 1 } :: numbered entries

def distinct (entries : List Entry) : List Entry :=
  entries.foldl (fun kept entry =>
    if kept.any fun other => Key.same other.key entry.key then kept else kept ++ [entry]) []

def replace (trail : Trail) (entries : List Entry) : Trail :=
  let kept := distinct (Entry.sort (numbered entries))
  { trail with
    entries := kept
    cursor := if kept.isEmpty then none else some 0
    nextSequence := entries.length + 1 }

end Trail
end Waymark
