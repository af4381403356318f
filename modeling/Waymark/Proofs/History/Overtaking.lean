import Waymark.Proofs.History.Concurrent
import Waymark.Proofs.Trail.Ahead
/-!
# Visits that overtake each other

A visit that needs no icon can be recorded before another one that was asked for earlier and still
waits for its icon. The trail goes by the records and not by the requests: of two visits, the one that
is recorded last is ahead.
-/

namespace Waymark

inductive Interleaves {α : Type} : List α → List α → List α → Prop where
  | none : Interleaves [] [] []
  | left {a : α} {as bs cs : List α} : Interleaves as bs cs → Interleaves (a :: as) bs (a :: cs)
  | right {b : α} {as bs cs : List α} : Interleaves as bs cs → Interleaves as (b :: bs) (b :: cs)

theorem Interleaves.of_nil {α : Type} {bs cs : List α} (run : Interleaves [] bs cs) : cs = bs := by
  induction bs generalizing cs with
  | nil =>
      cases run
      rfl
  | cons b bs ih =>
      cases run with
      | right rest => rw [ih rest]

theorem Interleaves.one_two {α : Type} {a b c : α} {all : List α}
    (run : Interleaves [a] [b, c] all) : all = [a, b, c] ∨ all = [b, a, c] ∨ all = [b, c, a] := by
  cases run with
  | left rest => exact .inl (by rw [rest.of_nil])
  | right rest =>
      cases rest with
      | left rest => exact .inr (.inl (by rw [rest.of_nil]))
      | right rest =>
          cases rest with
          | left rest => exact .inr (.inr (by rw [rest.of_nil]))

namespace Traffic
open Trail

def Action.time? : Action → Option Instant
  | .record _ _ now => some now
  | _ => none

variable {traffic : Traffic}

theorem ask_of_recordable {location : Location} (able : location.isRecordable = true) :
    ∃ awaitsIcon, (traffic.act (.ask location)).trail = traffic.trail ∧
      (traffic.act (.ask location)).visits = traffic.visits ++ [⟨location, awaitsIcon, none⟩] := by
  refine ⟨traffic.stage.history.awaitsIcon location, rfl, ?_⟩
  simp only [act, ask, able, if_true]

theorem record_of_recordable {place : Nat} {location : Location} {awaitsIcon : Bool}
    (underWay : traffic.visits[place]? = some ⟨location, awaitsIcon, none⟩)
    (able : location.isRecordable = true) (icon : Option String) (now : Instant) :
    ∃ given, (traffic.act (.record place icon now)).trail = (traffic.trail.visit location given now).1 ∧
      (traffic.act (.record place icon now)).visits =
        traffic.visits.set place ⟨location, awaitsIcon, some true⟩ := by
  obtain ⟨trail, visits⟩ := record_of_underWay underWay icon now
  refine ⟨given awaitsIcon icon, trail, visits.trans ?_⟩
  rw [visit_of_recordable able]

/-- One visit is recorded and then another, and both are answered. -/
structure Follow (start between after : Traffic) (first last : Location) (early late : Instant) :
    Prop where
  first : ∃ given, between.trail = (start.trail.visit first given early).1
  last : ∃ given, after.trail = (between.trail.visit last given late).1
  answers : after.visits.map Visiting.answer = [some true, some true]

theorem Follow.leads {start between after : Traffic} {first last : Location} {early late : Instant}
    (follow : Follow start between after first last early late) (coherent : start.trail.Coherent)
    (ableFirst : first.isRecordable = true) (ableLast : last.isRecordable = true)
    (differ : Key.same first.key last.key = false) (forward : ¬late < early) :
    Leads start.trail between.trail after.trail first last early late := by
  obtain ⟨givenFirst, firstTrail⟩ := follow.first
  obtain ⟨givenLast, lastTrail⟩ := follow.last
  rw [lastTrail, firstTrail]
  exact visit_leads coherent ableFirst ableLast differ forward givenFirst givenLast

theorem follow_of_underWay {start : Traffic} {i j : Nat} {first last : Location}
    {awaitsFirst awaitsLast : Bool} (different : i ≠ j)
    (underWayFirst : start.visits[i]? = some ⟨first, awaitsFirst, none⟩)
    (underWayLast : start.visits[j]? = some ⟨last, awaitsLast, none⟩)
    (ableFirst : first.isRecordable = true) (ableLast : last.isRecordable = true)
    (answered : ((start.visits.set i ⟨first, awaitsFirst, some true⟩).set j
      ⟨last, awaitsLast, some true⟩).map Visiting.answer = [some true, some true])
    (iconFirst iconLast : Option String) (early late : Instant) :
    let between := start.act (.record i iconFirst early)
    Follow start between (between.act (.record j iconLast late)) first last early late := by
  intro between
  obtain ⟨givenFirst, trailFirst, visitsFirst⟩ :=
    record_of_recordable underWayFirst ableFirst iconFirst early
  have waits : between.visits[j]? = some ⟨last, awaitsLast, none⟩ := by
    rw [visitsFirst, List.getElem?_set_ne different]
    exact underWayLast
  obtain ⟨givenLast, trailLast, visitsLast⟩ := record_of_recordable waits ableLast iconLast late
  exact {
    first := ⟨givenFirst, trailFirst⟩
    last := ⟨givenLast, trailLast⟩
    answers := by
      rw [visitsLast, visitsFirst]
      exact answered }

section

variable (stage : Stage) {a b : Location} (ableA : a.isRecordable = true)
  (ableB : b.isRecordable = true) (iconA iconB : Option String) (timeA timeB : Instant)

include ableA ableB

theorem follow_apart :
    let between := (ofStage stage).run [.ask a, .record 0 iconA timeA, .ask b]
    Follow (ofStage stage) between (between.act (.record 1 iconB timeB)) a b timeA timeB := by
  intro between
  obtain ⟨awaitsA, trail, visits⟩ := (ofStage stage).ask_of_recordable ableA
  have underWay : ((ofStage stage).act (.ask a)).visits[0]? = some ⟨a, awaitsA, none⟩ := by
    rw [visits]
    rfl
  obtain ⟨givenA, trailA, visitsA⟩ := record_of_recordable underWay ableA iconA timeA
  obtain ⟨awaitsB, askedB, visitsB⟩ :=
    (((ofStage stage).act (.ask a)).act (.record 0 iconA timeA)).ask_of_recordable ableB
  have both : between.visits = [⟨a, awaitsA, some true⟩, ⟨b, awaitsB, none⟩] := by
    rw [visitsA, visits] at visitsB
    exact visitsB
  have waits : between.visits[1]? = some ⟨b, awaitsB, none⟩ := by
    rw [both]
    rfl
  obtain ⟨givenB, trailB, answered⟩ := record_of_recordable waits ableB iconB timeB
  exact {
    first := ⟨givenA, askedB.trans (by rw [trailA, trail])⟩
    last := ⟨givenB, trailB⟩
    answers := by
      rw [answered, both]
      rfl }

theorem visits_asked : ∃ awaitsA awaitsB,
    ((ofStage stage).run [.ask a, .ask b]).visits = [⟨a, awaitsA, none⟩, ⟨b, awaitsB, none⟩] := by
  obtain ⟨awaitsA, -, visits⟩ := (ofStage stage).ask_of_recordable ableA
  obtain ⟨awaitsB, -, visitsB⟩ := ((ofStage stage).act (.ask a)).ask_of_recordable ableB
  rw [visits] at visitsB
  exact ⟨awaitsA, awaitsB, visitsB⟩

theorem follow_inOrder :
    let between := (ofStage stage).run [.ask a, .ask b, .record 0 iconA timeA]
    Follow (ofStage stage) between (between.act (.record 1 iconB timeB)) a b timeA timeB := by
  intro between
  obtain ⟨awaitsA, awaitsB, visits⟩ := visits_asked stage ableA ableB
  -- Asking leaves the trail as it is, so what follows the requests follows the stage.
  have follow := @follow_of_underWay ((ofStage stage).run [.ask a, .ask b]) 0 1 a b awaitsA awaitsB
    Nat.zero_ne_one (by rw [visits]; rfl) (by rw [visits]; rfl) ableA ableB (by rw [visits]; rfl)
    iconA iconB timeA timeB
  exact ⟨follow.first, follow.last, follow.answers⟩

theorem follow_overtaken :
    let between := (ofStage stage).run [.ask a, .ask b, .record 1 iconB timeB]
    Follow (ofStage stage) between (between.act (.record 0 iconA timeA)) b a timeB timeA := by
  intro between
  obtain ⟨awaitsA, awaitsB, visits⟩ := visits_asked stage ableA ableB
  have follow := @follow_of_underWay ((ofStage stage).run [.ask a, .ask b]) 1 0 b a awaitsB awaitsA
    Nat.one_ne_zero (by rw [visits]; rfl) (by rw [visits]; rfl) ableB ableA (by rw [visits]; rfl)
    iconB iconA timeB timeA
  exact ⟨follow.first, follow.last, follow.answers⟩

theorem overtaken_current (coherent : stage.history.trail.Coherent)
    (differ : Key.same a.key b.key = false) (forward : ¬timeA < timeB)
    (latest : ∀ entry ∈ ((ofStage stage).run
      [.ask a, .ask b, .record 1 iconB timeB]).trail.entries, ¬timeA < entry.visited) :
    ∀ entry, ((ofStage stage).run [.ask a, .ask b, .record 1 iconB timeB,
        .record 0 iconA timeA]).trail.current? = some entry →
      Key.same entry.key b.key = false := by
  intro entry current
  have leads := (follow_overtaken stage ableA ableB iconA iconB timeA timeB).leads coherent ableB ableA
    ((Key.same_comm _ _).trans differ) forward
  obtain ⟨other, alsoCurrent, isA⟩ := leads.current_iff.mpr fun entry inside _ => latest entry inside
  have equal : entry = other := Option.some.inj (current.symm.trans alsoCurrent)
  rw [equal]
  exact not_same_last differ isA

end

/-- Whatever the order in which two visits to different locations are recorded, both are answered,
and the trail leads to the one that was recorded last: the one that was asked for last, or the other
if it was overtaken. -/
theorem recorded_last_leads (disk : Disk) (path : Path) (hasWriter : Bool) (limit : Nat)
    (actions : List History.Action) {a b : Location} (ableA : a.isRecordable = true)
    (ableB : b.isRecordable = true) (differ : Key.same a.key b.key = false)
    (iconA iconB : Option String) {timeA timeB : Instant} {schedule : List Action}
    (order : Interleaves [.record 0 iconA timeA] [.ask b, .record 1 iconB timeB] schedule)
    (clock : (schedule.filterMap Action.time?).Pairwise fun early late => ¬late < early) :
    let start := ofStage ((Stage.open disk path hasWriter limit).run actions)
    let between := start.run (.ask a :: schedule.dropLast)
    let after := start.run (.ask a :: schedule)
    after.visits.map Visiting.answer = [some true, some true] ∧
      ((schedule.getLast? = some (.record 1 iconB timeB) ∧
          Leads start.trail between.trail after.trail a b timeA timeB) ∨
        (schedule.getLast? = some (.record 0 iconA timeA) ∧
          Leads start.trail between.trail after.trail b a timeB timeA)) := by
  intro start between after
  have coherent : start.trail.Coherent :=
    (Stage.matched_run (Stage.matched_open disk path hasWriter limit) actions).coherent
  have swapped : Key.same b.key a.key = false := (Key.same_comm _ _).trans differ
  rcases order.one_two with rfl | rfl | rfl
  · have follow : Follow start between after a b timeA timeB :=
      follow_apart _ ableA ableB iconA iconB timeA timeB
    have forward : ¬timeB < timeA := List.rel_of_pairwise_cons clock List.mem_cons_self
    exact ⟨follow.answers, .inl ⟨rfl, follow.leads coherent ableA ableB differ forward⟩⟩
  · have follow : Follow start between after a b timeA timeB :=
      follow_inOrder _ ableA ableB iconA iconB timeA timeB
    have forward : ¬timeB < timeA := List.rel_of_pairwise_cons clock List.mem_cons_self
    exact ⟨follow.answers, .inl ⟨rfl, follow.leads coherent ableA ableB differ forward⟩⟩
  · have follow : Follow start between after b a timeB timeA :=
      follow_overtaken _ ableA ableB iconA iconB timeA timeB
    have forward : ¬timeA < timeB := List.rel_of_pairwise_cons clock List.mem_cons_self
    exact ⟨follow.answers, .inr ⟨rfl, follow.leads coherent ableB ableA swapped forward⟩⟩

def iconed : List History.Action :=
  [.visit (.named "/b" "b") (some "folder") ⟨1700000000, 0⟩]

def overtaking : List Action :=
  [.ask (.named "/b" "b"), .record 1 none ⟨1700000001, 0⟩, .record 0 (some "file") ⟨1700000002, 0⟩]

def iconedTraffic : Traffic :=
  ofStage ((Stage.open ⟨[], []⟩ ⟨"/h.json"⟩ true 10).run iconed)

theorem interleaves_overtaking :
    Interleaves [.record 0 (some "file") ⟨1700000002, 0⟩]
      [.ask (.named "/b" "b"), .record 1 none ⟨1700000001, 0⟩] overtaking :=
  .right (.right (.left .none))

theorem forward_overtaking :
    (overtaking.filterMap Action.time?).Pairwise fun early late => ¬late < early := by
  decide

theorem overtaken_trail :
    Key.same "/a" "/b" = false ∧
      (overtaking.filterMap Action.time?).Pairwise (fun early late => ¬late < early) ∧
      ∃ newest next rest,
        (iconedTraffic.run (.ask (.named "/a" "a") :: overtaking)).trail.entries =
          newest :: next :: rest ∧
        Key.same newest.key "/a" = true ∧ newest.visited = ⟨1700000002, 0⟩ ∧
        Key.same next.key "/b" = true ∧ next.visited = ⟨1700000001, 0⟩ := by
  refine ⟨by decide, forward_overtaking, ?_⟩
  obtain ⟨-, ⟨last, -⟩ | ⟨-, leads⟩⟩ := recorded_last_leads ⟨[], []⟩ ⟨"/h.json"⟩ true 10 iconed
    (a := .named "/a" "a") (b := .named "/b" "b") (by decide) (by decide) (by decide) (some "file")
    none interleaves_overtaking forward_overtaking
  · cases last
  · refine leads.newest fun entry inside => ?_
    have notLater : ∀ entry ∈ iconedTraffic.trail.entries,
        ¬(⟨1700000001, 0⟩ : Instant) < entry.visited := by decide +kernel
    exact notLater entry inside

/-- What was asked for last is not always ahead, nor is it the current one. -/
theorem not_asked_last_leads :
    ¬∀ (disk : Disk) (path : Path) (hasWriter : Bool) (limit : Nat) (actions : List History.Action)
        (a b : Location) (iconA iconB : Option String) (timeA timeB : Instant)
        (schedule : List Action),
      a.isRecordable = true → b.isRecordable = true → Key.same a.key b.key = false →
      Interleaves [.record 0 iconA timeA] [.ask b, .record 1 iconB timeB] schedule →
      (schedule.filterMap Action.time?).Pairwise (fun early late => ¬late < early) →
      let after := (ofStage ((Stage.open disk path hasWriter limit).run actions)).run
        (.ask a :: schedule)
      after.visits.map Visiting.answer = [some true, some true] →
      (∀ (place : Nat) (entry : Entry), after.trail.entries[place]? = some entry →
          Key.same entry.key a.key = true →
            ∃ (nearer : Nat) (other : Entry), nearer < place ∧
              after.trail.entries[nearer]? = some other ∧ Key.same other.key b.key = true) ∧
        ∃ entry, after.trail.current? = some entry ∧ Key.same entry.key b.key = true := by
  intro ahead
  have ableA : (Location.named "/a" "a").isRecordable = true := by decide
  have ableB : (Location.named "/b" "b").isRecordable = true := by decide
  have answers := (follow_overtaken ((Stage.open ⟨[], []⟩ ⟨"/h.json"⟩ true 10).run iconed) ableA
    ableB (some "file") none ⟨1700000002, 0⟩ ⟨1700000001, 0⟩).answers
  obtain ⟨-, entry, current, isB⟩ := ahead ⟨[], []⟩ ⟨"/h.json"⟩ true 10 iconed _ _ (some "file") none
    ⟨1700000002, 0⟩ ⟨1700000001, 0⟩ overtaking ableA ableB (by decide) interleaves_overtaking
    forward_overtaking answers
  have coherent := (Stage.matched_run (Stage.matched_open ⟨[], []⟩ ⟨"/h.json"⟩ true 10) iconed).coherent
  have notB := overtaken_current _ ableA ableB (some "file") none ⟨1700000002, 0⟩ ⟨1700000001, 0⟩
    coherent (by decide) (by decide) (by decide +kernel) entry current
  exact absurd isB (by simp [notB])

end Traffic
end Waymark
