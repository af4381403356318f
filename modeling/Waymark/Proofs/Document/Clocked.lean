import Mathlib.Data.List.Induction
import Waymark.Proofs.Document.Accepted
import Waymark.Proofs.Document.Covered
/-!
# When documents are written

A document on a clock is written at every save without a delay, and when the writer serves the
deadline of the last save with one, if the document is still marked then. It may serve the deadline
at any moment from when the clock stands at it until the clock moves on. Nothing else writes it.
-/

namespace Waymark

structure Clocked where
  document : Document
  disk : Disk
  clock : Nat

namespace Clocked

/-- Only `advance` moves the clock. At `due` the writer serves a deadline that has come, before what
it is asked for at that time. -/
inductive Event where
  | set (name : String) (value : Json)
  | remove (name : String)
  | save (delay : Nat)
  | due
  | advance (span : Nat)

def start (path : Path) (bag : Bag) (disk : Disk) (now : Nat) : Clocked :=
  ⟨.ofBag path bag true, disk, now⟩

def act (clocked : Clocked) : Event → Clocked
  | .set name value => { clocked with document := (clocked.document.set name value).1 }
  | .remove name => { clocked with document := (clocked.document.remove name).1 }
  | .save delay =>
      let (document, disk, _) := clocked.document.save clocked.disk delay
      ⟨document, disk, clocked.clock⟩
  | .due =>
      let (document, disk) := clocked.document.serveDue clocked.disk clocked.clock
      ⟨document, disk, clocked.clock⟩
  | .advance span =>
      let later := clocked.clock + span
      let (document, disk) := clocked.document.wait clocked.disk clocked.clock later
      ⟨document, disk, later⟩

def run (clocked : Clocked) (events : List Event) : Clocked :=
  events.foldl act clocked

def Event.span : Event → Nat
  | .advance span => span
  | _ => 0

def Event.IsDeferred (event : Event) : Prop :=
  ∃ delay, delay ≠ 0 ∧ event = .save delay

def Event.IsSave (event : Event) : Prop :=
  ∃ delay, event = .save delay

def Event.IsCall : Event → Prop
  | .due | .advance _ => False
  | _ => True

def elapsed : List Event → Nat
  | [] => 0
  | event :: rest => event.span + elapsed rest

def LastDeferred (events : List Event) (delay : Nat) (since : List Event) : Prop :=
  delay ≠ 0 ∧ (∀ event ∈ since, ¬event.IsDeferred) ∧
    ∃ early, events = early ++ .save delay :: since

def Unserved (delay : Nat) (since : List Event) : Prop :=
  ∀ before after, since = before ++ .due :: after → elapsed before < delay

/-- The deadline of the last save with a delay is neither served nor passed. -/
structure Awaited (events : List Event) (delay : Nat) (since : List Event) : Prop where
  last : LastDeferred events delay since
  coming : elapsed since ≤ delay
  unserved : Unserved delay since

def Passes (events : List Event) (span : Nat) : Prop :=
  ∃ delay since, Awaited events delay since ∧ delay < elapsed since + span

/-- The clock stands at the deadline that the writer waits for. What was asked for since the clock
came there may not have been taken yet. -/
def Stands (events : List Event) : Prop :=
  ∃ past calls, events = past ++ calls ∧ (∀ event ∈ calls, event.IsCall) ∧
    ∃ delay since, Awaited past delay since ∧ elapsed since = delay

def Writes (events : List Event) (here : Clocked) : Event → Prop
  | .save delay => delay = 0
  | .due => Stands events ∧ here.document.isPending = true
  | .advance span => Passes events span ∧ here.document.isPending = true
  | _ => False

def WritesAt (start : Clocked) (events : List Event) (place : Nat) : Prop :=
  ∃ event, events[place]? = some event ∧
    Writes (events.take place) (start.run (events.take place)) event

/-- Saves with delays, each before the deadline of the one before, until the writer serves the
deadline of the last. -/
inductive Burst : List Event → Prop
  | passed {delay span : Nat} {since : List Event} (deferred : delay ≠ 0)
      (noSave : ∀ event ∈ since, ¬event.IsSave) (coming : elapsed since ≤ delay)
      (unserved : Unserved delay since) (gone : delay < elapsed since + span) :
      Burst (.save delay :: since ++ [.advance span])
  | served {delay : Nat} {since : List Event} (deferred : delay ≠ 0)
      (noSave : ∀ event ∈ since, ¬event.IsSave) (unserved : Unserved delay since)
      (reached : elapsed since = delay) : Burst (.save delay :: since ++ [.due])
  | more {delay : Nat} {since rest : List Event} (deferred : delay ≠ 0)
      (noSave : ∀ event ∈ since, ¬event.IsSave) (coming : elapsed since < delay)
      (burst : Burst rest) : Burst (.save delay :: since ++ rest)

variable {clocked : Clocked} {events since : List Event} {event : Event} {delay : Nat}

theorem run_concat (clocked : Clocked) (events : List Event) (event : Event) :
    clocked.run (events ++ [event]) = (clocked.run events).act event := by
  rw [run, run, List.foldl_append]
  rfl

theorem elapsed_append (first second : List Event) :
    elapsed (first ++ second) = elapsed first + elapsed second := by
  induction first with
  | nil => exact (Nat.zero_add _).symm
  | cons event rest ih => rw [List.cons_append, elapsed, elapsed, ih, Nat.add_assoc]

theorem elapsed_concat (events : List Event) (event : Event) :
    elapsed (events ++ [event]) = elapsed events + event.span :=
  elapsed_append events [event]

theorem concat_eq_iff {last : Event} {early : List Event} :
    events ++ [last] = early ++ event :: since ↔
      (since = [] ∧ event = last ∧ early = events) ∨
        ∃ before, since = before ++ [last] ∧ events = early ++ event :: before := by
  constructor
  · intro same
    rcases List.eq_nil_or_concat since with rfl | ⟨before, other, rfl⟩
    · obtain ⟨rfl, here⟩ := List.append_inj' same rfl
      exact .inl ⟨rfl, (List.singleton_inj.mp here).symm, rfl⟩
    · rw [List.concat_eq_append] at same ⊢
      rw [← List.cons_append, ← List.append_assoc] at same
      obtain ⟨rfl, here⟩ := List.append_inj' same rfl
      exact .inr ⟨before, by rw [List.singleton_inj.mp here], rfl⟩
  · rintro (⟨rfl, rfl, rfl⟩ | ⟨before, rfl, rfl⟩)
    · rfl
    · simp

theorem lastDeferred_save {other : Nat} (deferred : other ≠ 0) :
    LastDeferred (events ++ [.save other]) delay since ↔ delay = other ∧ since = [] := by
  constructor
  · rintro ⟨-, others, early, same⟩
    rcases concat_eq_iff.mp same with ⟨none, here, -⟩ | ⟨before, rfl, -⟩
    · cases here
      exact ⟨rfl, none⟩
    · exact absurd ⟨other, deferred, rfl⟩ (others (.save other) (by simp))
  · rintro ⟨rfl, rfl⟩
    exact ⟨deferred, nofun, events, rfl⟩

theorem lastDeferred_other (other : ¬event.IsDeferred) :
    LastDeferred (events ++ [event]) delay since ↔
      ∃ before, since = before ++ [event] ∧ LastDeferred events delay before := by
  constructor
  · rintro ⟨deferred, others, early, same⟩
    rcases concat_eq_iff.mp same with ⟨-, here, -⟩ | ⟨before, rfl, split⟩
    · exact absurd ⟨delay, deferred, here.symm⟩ other
    · exact ⟨before, rfl, deferred, fun event inside => others event (by simp [inside]), early, split⟩
  · rintro ⟨before, rfl, deferred, others, early, rfl⟩
    refine ⟨deferred, ?_, early, by simp⟩
    intro event inside
    rcases List.mem_append.mp inside with old | new
    · exact others event old
    · exact List.mem_singleton.mp new ▸ other

theorem lastDeferred_unique {other : Nat} {between : List Event}
    (last : LastDeferred events delay since) (same : LastDeferred events other between) :
    delay = other ∧ since = between := by
  induction events using List.reverseRecOn generalizing since between with
  | nil =>
      obtain ⟨-, -, early, none⟩ := last
      simp at none
  | append_singleton events event ih =>
      by_cases deferred : event.IsDeferred
      · obtain ⟨delay, positive, rfl⟩ := deferred
        rw [lastDeferred_save positive] at last same
        exact ⟨last.1.trans same.1.symm, last.2.trans same.2.symm⟩
      · rw [lastDeferred_other deferred] at last same
        obtain ⟨before, rfl, last⟩ := last
        obtain ⟨others, rfl, same⟩ := same
        obtain ⟨delays, between⟩ := ih last same
        exact ⟨delays, by rw [between]⟩

theorem unserved_nil (delay : Nat) : Unserved delay [] := by
  intro before after none
  simp at none

theorem unserved_concat : Unserved delay (since ++ [event]) ↔
    Unserved delay since ∧ (event = .due → elapsed since < delay) := by
  simp only [Unserved, concat_eq_iff]
  constructor
  · refine fun unserved => ⟨fun before after split => ?_, ?_⟩
    · exact unserved before (after ++ [event]) (.inr ⟨after, rfl, split⟩)
    · rintro rfl
      exact unserved since [] (.inl ⟨rfl, rfl, rfl⟩)
  · rintro ⟨earlier, here⟩ before after (⟨-, due, rfl⟩ | ⟨between, -, split⟩)
    · exact here due.symm
    · exact earlier before between split

theorem unserved_of_lt (coming : elapsed since < delay) : Unserved delay since := by
  rintro before after rfl
  rw [elapsed_append] at coming
  exact Nat.lt_of_le_of_lt (Nat.le_add_right _ _) coming

theorem awaited_save {other : Nat} (deferred : other ≠ 0) :
    Awaited (events ++ [.save other]) delay since ↔ delay = other ∧ since = [] := by
  constructor
  · exact fun awaited => (lastDeferred_save deferred).mp awaited.last
  · rintro ⟨rfl, rfl⟩
    exact ⟨(lastDeferred_save deferred).mpr ⟨rfl, rfl⟩, Nat.zero_le _, unserved_nil _⟩

theorem awaited_other (other : ¬event.IsDeferred) :
    Awaited (events ++ [event]) delay since ↔
      ∃ before, since = before ++ [event] ∧ Awaited events delay before ∧
        elapsed before + event.span ≤ delay ∧ (event = .due → elapsed before < delay) := by
  constructor
  · rintro ⟨last, coming, unserved⟩
    obtain ⟨before, rfl, earlier⟩ := (lastDeferred_other other).mp last
    rw [elapsed_concat] at coming
    obtain ⟨unservedBefore, here⟩ := unserved_concat.mp unserved
    exact ⟨before, rfl, ⟨earlier, Nat.le_of_add_right_le coming, unservedBefore⟩, coming, here⟩
  · rintro ⟨before, rfl, ⟨last, -, unserved⟩, coming, here⟩
    exact ⟨(lastDeferred_other other).mpr ⟨before, rfl, last⟩, by rwa [elapsed_concat],
      unserved_concat.mpr ⟨unserved, here⟩⟩

def Armed (events : List Event) (clock time : Nat) : Prop :=
  ∃ delay since, Awaited events delay since ∧ time + elapsed since = clock + delay

theorem Armed.coming {clock time : Nat} (armed : Armed events clock time) : clock ≤ time := by
  obtain ⟨delay, since, awaited, same⟩ := armed
  have coming := awaited.coming
  omega

theorem armed_save (deferred : delay ≠ 0) (clock time : Nat) :
    Armed (events ++ [.save delay]) clock time ↔ time = clock + delay := by
  simp only [Armed, awaited_save deferred]
  constructor
  · rintro ⟨other, since, ⟨rfl, rfl⟩, same⟩
    exact same
  · rintro rfl
    exact ⟨delay, [], ⟨rfl, rfl⟩, rfl⟩

theorem armed_other (events : List Event) (other : ¬event.IsDeferred) (clock time : Nat) :
    Armed (events ++ [event]) (clock + event.span) time ↔
      Armed events clock time ∧ clock + event.span ≤ time ∧ (event = .due → clock < time) := by
  simp only [Armed, awaited_other other]
  constructor
  · rintro ⟨delay, -, ⟨before, rfl, awaited, coming, here⟩, same⟩
    rw [elapsed_concat] at same
    exact ⟨⟨delay, before, awaited, by omega⟩, by omega, fun due => by have := here due; omega⟩
  · rintro ⟨⟨delay, before, awaited, same⟩, later, here⟩
    exact ⟨delay, _, ⟨before, rfl, awaited, by omega, fun due => by have := here due; omega⟩,
      by rw [elapsed_concat]; omega⟩

theorem passes_iff (events : List Event) (clock span : Nat) :
    Passes events span ↔ ∃ time, Armed events clock time ∧ time < clock + span := by
  constructor
  · rintro ⟨delay, since, awaited, gone⟩
    have coming := awaited.coming
    exact ⟨clock + delay - elapsed since, ⟨delay, since, awaited, by omega⟩, by omega⟩
  · rintro ⟨time, ⟨delay, since, awaited, same⟩, gone⟩
    exact ⟨delay, since, awaited, by omega⟩

theorem stands_call (call : event.IsCall) : Stands (events ++ [event]) ↔ Stands events := by
  constructor
  · rintro ⟨past, calls, split, areCalls, delay, since, awaited, reached⟩
    rcases List.eq_nil_or_concat calls with rfl | ⟨before, last, rfl⟩
    · rw [List.append_nil] at split
      subst split
      by_cases deferred : event.IsDeferred
      · -- A deadline is not reached when it has just been asked for.
        obtain ⟨other, positive, rfl⟩ := deferred
        obtain ⟨rfl, rfl⟩ := (awaited_save positive).mp awaited
        exact absurd reached.symm positive
      · obtain ⟨before, rfl, awaited, coming, -⟩ := (awaited_other deferred).mp awaited
        rw [elapsed_concat] at reached
        exact ⟨events, [], (List.append_nil _).symm, nofun, delay, before, awaited,
          by have := awaited.coming; cases event <;> first | exact reached | exact call.elim⟩
    · rw [List.concat_eq_append, ← List.append_assoc] at split
      obtain ⟨rfl, -⟩ := List.append_inj' split rfl
      exact ⟨past, before, rfl, fun event inside => areCalls event (by simp [inside]),
        delay, since, awaited, reached⟩
  · rintro ⟨past, calls, rfl, areCalls, awaited⟩
    refine ⟨past, calls ++ [event], List.append_assoc .., fun other inside => ?_, awaited⟩
    rcases List.mem_append.mp inside with old | new
    · exact areCalls other old
    · exact List.mem_singleton.mp new ▸ call

theorem stands_other (noCall : ¬event.IsCall) (clock : Nat) :
    Stands (events ++ [event]) ↔ Armed (events ++ [event]) clock clock := by
  constructor
  · rintro ⟨past, calls, split, areCalls, delay, since, awaited, reached⟩
    rcases List.eq_nil_or_concat calls with rfl | ⟨before, last, rfl⟩
    · rw [List.append_nil] at split
      exact ⟨delay, since, split ▸ awaited, by rw [reached]⟩
    · rw [List.concat_eq_append, ← List.append_assoc] at split
      obtain ⟨-, here⟩ := List.append_inj' split rfl
      refine absurd (areCalls last (by simp)) ?_
      rwa [← List.singleton_inj.mp here]
  · rintro ⟨delay, since, awaited, same⟩
    exact ⟨_, [], (List.append_nil _).symm, nofun, delay, since, awaited, Nat.add_left_cancel same⟩

theorem not_isDeferred_due : ¬Event.due.IsDeferred :=
  nofun

theorem not_isDeferred_advance (span : Nat) : ¬(Event.advance span).IsDeferred :=
  nofun

theorem not_stands_due : ¬Stands (events ++ [.due]) := by
  rw [stands_other id 0]
  intro armed
  have gone := ((armed_other events not_isDeferred_due 0 0).mp armed).2.2 rfl
  exact absurd gone (Nat.lt_irrefl 0)

def deadlineAfter (now : Nat) (deadline : Option Nat) (queue : List Request) : Option Nat :=
  queue.foldl (fun deadline request => match request with
    | .schedule delay => some (now + delay)
    | .flush => deadline) deadline

theorem serveAll_schedules {document : Document} {queue : List Request} {deadline : Option Nat}
    (held : document.writer = some ⟨queue, deadline⟩) (schedules : .flush ∉ queue) (disk : Disk)
    (now : Nat) : document.serveAll disk now =
      ({ document with writer := some ⟨[], deadlineAfter now deadline queue⟩ }, disk) := by
  simp only [Document.serveAll, held]
  clear held
  induction queue generalizing deadline with
  | nil => rfl
  | cons request rest ih =>
      cases request with
      | flush => exact absurd List.mem_cons_self schedules
      | schedule delay => exact ih fun there => schedules (List.mem_cons_of_mem _ there)

theorem wait_eq {document : Document} {queue : List Request} {deadline : Option Nat}
    (held : document.writer = some ⟨queue, deadline⟩) (schedules : .flush ∉ queue) (disk : Disk)
    (now later : Nat) : document.wait disk now later =
      match deadlineAfter now deadline queue with
      | some time =>
          if time < later then
            let (document, disk, _) :=
              { document with writer := some ⟨[], none⟩ }.writePending disk
            (document, disk)
          else ({ document with writer := some ⟨[], some time⟩ }, disk)
      | none => ({ document with writer := some ⟨[], none⟩ }, disk) := by
  rw [Document.wait, serveAll_schedules held schedules]
  cases deadlineAfter now deadline queue with
  | none => rfl
  | some time => rfl

/-- The writer waits for the deadline of the last save with a delay that it has taken, and has still
to take those that came since the clock last moved. -/
structure Scheduled (events : List Event) (clock : Nat) (queue : List Request)
    (deadline : Option Nat) : Prop where
  delays : ∀ request ∈ queue, ∃ delay, delay ≠ 0 ∧ request = .schedule delay
  coming : ∀ time, deadline = some time → clock ≤ time
  stands : deadline = some clock ↔ Stands events
  armed : ∀ time, deadlineAfter clock deadline queue = some time ↔ Armed events clock time

variable {clock : Nat} {queue : List Request} {deadline : Option Nat}

theorem Scheduled.noFlush (scheduled : Scheduled events clock queue deadline) : .flush ∉ queue := by
  intro inside
  obtain ⟨delay, -, ⟨⟩⟩ := scheduled.delays .flush inside

theorem scheduled_nil (clock : Nat) : Scheduled [] clock [] none where
  delays := nofun
  coming := nofun
  stands := by
    refine ⟨nofun, ?_⟩
    rintro ⟨past, calls, none, -, delay, since, ⟨⟨-, -, early, rfl⟩, -, -⟩, -⟩
    simp at none
  armed time := by
    refine ⟨nofun, ?_⟩
    rintro ⟨delay, since, ⟨⟨-, -, early, none⟩, -, -⟩, -⟩
    simp at none

theorem Scheduled.call (scheduled : Scheduled events clock queue deadline) (call : event.IsCall)
    (other : ¬event.IsDeferred) : Scheduled (events ++ [event]) clock queue deadline where
  delays := scheduled.delays
  coming := scheduled.coming
  stands := scheduled.stands.trans (stands_call call).symm
  armed time := by
    have still : event.span = 0 := by cases event <;> first | rfl | exact call.elim
    have noDue : event ≠ .due := by rintro rfl; exact call
    have armed := armed_other events other clock time
    rw [still, Nat.add_zero] at armed
    rw [scheduled.armed, armed]
    exact ⟨fun armed => ⟨armed, armed.coming, fun due => absurd due noDue⟩, And.left⟩

theorem Scheduled.defer (scheduled : Scheduled events clock queue deadline) (deferred : delay ≠ 0) :
    Scheduled (events ++ [.save delay]) clock (queue ++ [.schedule delay]) deadline where
  delays request inside := by
    rcases List.mem_append.mp inside with old | new
    · exact scheduled.delays request old
    · exact ⟨delay, deferred, List.mem_singleton.mp new⟩
  coming := scheduled.coming
  stands := by
    have call : (Event.save delay).IsCall := trivial
    exact scheduled.stands.trans (stands_call call).symm
  armed time := by
    rw [deadlineAfter, List.foldl_append, armed_save deferred]
    exact Option.some_inj.trans eq_comm

theorem filter_eq_some {later time : Nat} :
    deadline.filter (later ≤ ·) = some time ↔ deadline = some time ∧ later ≤ time := by
  rw [Option.filter_eq_some_iff, decide_eq_true_iff]

theorem Scheduled.advance (scheduled : Scheduled events clock queue deadline) (span : Nat) :
    Scheduled (events ++ [.advance span]) (clock + span) []
      ((deadlineAfter clock deadline queue).filter (clock + span ≤ ·)) := by
  have armed : ∀ time, (deadlineAfter clock deadline queue).filter (clock + span ≤ ·) = some time ↔
      Armed (events ++ [.advance span]) (clock + span) time := fun time => by
    rw [filter_eq_some, scheduled.armed]
    refine Iff.trans ?_ (armed_other events (not_isDeferred_advance span) clock time).symm
    exact ⟨fun ⟨armed, later⟩ => ⟨armed, later, nofun⟩, fun ⟨armed, later, _⟩ => ⟨armed, later⟩⟩
  exact ⟨nofun, fun time left => (filter_eq_some.mp left).2,
    (armed _).trans (stands_other id _).symm, armed⟩

theorem deadlineAfter_filter {now : Nat}
    (delays : ∀ request ∈ queue, ∃ delay, delay ≠ 0 ∧ request = Request.schedule delay) :
    deadlineAfter now (deadline.filter (now + 1 ≤ ·)) queue =
      (deadlineAfter now deadline queue).filter (now + 1 ≤ ·) := by
  induction queue generalizing deadline with
  | nil => rfl
  | cons request rest ih =>
      obtain ⟨delay, positive, rfl⟩ := delays _ List.mem_cons_self
      have stays : (some (now + delay)).filter (now + 1 ≤ ·) = some (now + delay) :=
        filter_eq_some.mpr ⟨rfl, by omega⟩
      have same := @ih (some (now + delay)) fun request inside => delays request (.tail _ inside)
      rwa [stays] at same

theorem Scheduled.due (scheduled : Scheduled events clock queue deadline) :
    Scheduled (events ++ [.due]) clock queue (deadline.filter (clock + 1 ≤ ·)) where
  delays := scheduled.delays
  coming time left := Nat.le_of_succ_le (filter_eq_some.mp left).2
  stands := by
    refine iff_of_false (fun left => ?_) not_stands_due
    exact absurd (filter_eq_some.mp left).2 (Nat.not_succ_le_self clock)
  armed time := by
    rw [deadlineAfter_filter scheduled.delays, filter_eq_some, scheduled.armed]
    refine Iff.trans ?_ (armed_other events not_isDeferred_due clock time).symm
    exact ⟨fun ⟨armed, later⟩ => ⟨armed, armed.coming, fun _ => later⟩,
      fun ⟨armed, _, later⟩ => ⟨armed, later rfl⟩⟩

structure Rests (here next : Clocked) : Prop where
  writes : next.document.writes = here.document.writes
  disk : next.disk = here.disk

structure Wrote (here next : Clocked) : Prop where
  writes : next.document.writes = here.document.writes + 1
  disk : next.disk =
    (here.disk.replace here.document.path (Document.contents here.document.bag)).1
  isPending : next.document.isPending = false

inductive Outcome (events : List Event) (here next : Clocked) (event : Event) : Prop
  | rests (notWritten : ¬Writes events here event) (rests : Rests here next)
      (isPending : next.document.isPending = true ↔
        here.document.isPending = true ∨ event.IsDeferred)
  | wrote (written : Writes events here event) (wrote : Wrote here next)

structure Follows (events : List Event) (clocked : Clocked) : Prop where
  scheduled : ∃ queue deadline, clocked.document.writer = some ⟨queue, deadline⟩ ∧
    Scheduled events clocked.clock queue deadline
  accepts : clocked.disk.Accepts clocked.document.path

theorem follows_start {path : Path} {disk : Disk} (accepts : disk.Accepts path) (bag : Bag)
    (now : Nat) : Follows [] (start path bag disk now) where
  scheduled := ⟨[], none, rfl, scheduled_nil now⟩
  accepts := accepts

theorem Follows.edit (follows : Follows events clocked) {outcome : Document × Bool}
    (changes : clocked.document.Changes outcome) (call : event.IsCall)
    (other : ¬event.IsDeferred) (notWritten : ¬Writes events clocked event) :
    Follows (events ++ [event]) { clocked with document := outcome.1 } ∧
      Outcome events clocked { clocked with document := outcome.1 } event := by
  obtain ⟨queue, deadline, held, scheduled⟩ := follows.scheduled
  refine ⟨⟨⟨queue, deadline, changes.writer.trans held, scheduled.call call other⟩,
    changes.path ▸ follows.accepts⟩, .rests notWritten ⟨changes.writes, rfl⟩ ?_⟩
  rw [changes.isPending]
  exact ⟨.inl, fun either => either.resolve_right other⟩

theorem Follows.defer (follows : Follows events clocked) (deferred : delay ≠ 0) :
    Follows (events ++ [.save delay]) (clocked.act (.save delay)) ∧
      Outcome events clocked (clocked.act (.save delay)) (.save delay) := by
  obtain ⟨queue, deadline, held, scheduled⟩ := follows.scheduled
  simp only [act, Document.save_deferred deferred held]
  refine ⟨⟨⟨_, deadline, rfl, scheduled.defer deferred⟩, follows.accepts⟩, ?_⟩
  exact .rests deferred ⟨rfl, rfl⟩ ⟨fun _ => .inr ⟨delay, deferred, rfl⟩, fun _ => rfl⟩

theorem Follows.saveNow (follows : Follows events clocked) :
    Follows (events ++ [.save 0]) (clocked.act (.save 0)) ∧
      Outcome events clocked (clocked.act (.save 0)) (.save 0) := by
  obtain ⟨queue, deadline, held, scheduled⟩ := follows.scheduled
  have other : ¬(Event.save 0).IsDeferred := by
    rintro ⟨delay, deferred, ⟨⟩⟩
    exact deferred rfl
  simp only [act, Document.save_accepted (.inl rfl) follows.accepts]
  exact ⟨⟨⟨queue, deadline, held, scheduled.call trivial other⟩, follows.accepts.again _⟩,
    .wrote rfl ⟨rfl, rfl, rfl⟩⟩

theorem Follows.expire (follows : Follows events clocked) (other : ¬event.IsDeferred)
    {document : Document} (held : document.writer = some ⟨queue, deadline⟩)
    (same : document = { clocked.document with writer := document.writer }) {later next : Nat}
    (scheduled : Scheduled (events ++ [event]) next queue (deadline.filter (later ≤ ·)))
    (writes : Writes events clocked event ↔
      (∃ time, deadline = some time ∧ time < later) ∧ clocked.document.isPending = true) :
    let expired : Clocked :=
      ⟨(document.expire clocked.disk later).1, (document.expire clocked.disk later).2, next⟩
    Follows (events ++ [event]) expired ∧ Outcome events clocked expired event := by
  have still : clocked.document.isPending = true ↔
      clocked.document.isPending = true ∨ event.IsDeferred :=
    ⟨.inl, fun either => either.resolve_right other⟩
  rw [same, held]
  cases deadline with
  | none =>
      refine ⟨⟨⟨queue, none, rfl, scheduled⟩, follows.accepts⟩,
        .rests (fun written => ?_) ⟨rfl, rfl⟩ still⟩
      obtain ⟨⟨time, ⟨⟩, -⟩, -⟩ := writes.mp written
  | some time =>
      by_cases gone : time < later
      · have served : (some time).filter (later ≤ ·) = none :=
          Option.filter_eq_none_iff.mpr fun other here => by
            rw [← Option.some_inj.mp here]
            simpa using gone
        rw [served] at scheduled
        let idle : Document := { clocked.document with writer := some ⟨queue, none⟩ }
        simp only [Document.expire, Document.withDeadline, Option.map_some, if_pos gone]
        by_cases pending : clocked.document.isPending = true
        · rw [Document.writePending_accepted idle pending follows.accepts]
          exact ⟨⟨⟨queue, none, rfl, scheduled⟩, follows.accepts.again _⟩,
            .wrote (writes.mpr ⟨⟨time, rfl, gone⟩, pending⟩) ⟨rfl, rfl, rfl⟩⟩
        · rw [Document.writePending_clean idle (Bool.eq_false_iff.mpr pending)]
          exact ⟨⟨⟨queue, none, rfl, scheduled⟩, follows.accepts⟩,
            .rests (fun written => pending (writes.mp written).2) ⟨rfl, rfl⟩ still⟩
      · have stays : (some time).filter (later ≤ ·) = some time :=
          filter_eq_some.mpr ⟨rfl, Nat.not_lt.mp gone⟩
        rw [stays] at scheduled
        simp only [Document.expire, if_neg gone]
        refine ⟨⟨⟨queue, some time, rfl, scheduled⟩, follows.accepts⟩,
          .rests (fun written => ?_) ⟨rfl, rfl⟩ still⟩
        obtain ⟨⟨_, ⟨⟩, sooner⟩, -⟩ := writes.mp written
        exact gone sooner

theorem Follows.due (follows : Follows events clocked) :
    Follows (events ++ [.due]) (clocked.act .due) ∧
      Outcome events clocked (clocked.act .due) .due := by
  obtain ⟨queue, deadline, held, scheduled⟩ := follows.scheduled
  refine follows.expire not_isDeferred_due held rfl scheduled.due (and_congr_left' ?_)
  rw [← scheduled.stands]
  constructor
  · exact fun here => ⟨_, here, Nat.lt_succ_self _⟩
  · rintro ⟨time, here, soon⟩
    rw [here, Nat.le_antisymm (Nat.le_of_lt_succ soon) (scheduled.coming time here)]

theorem Follows.advance (follows : Follows events clocked) (span : Nat) :
    Follows (events ++ [.advance span]) (clocked.act (.advance span)) ∧
      Outcome events clocked (clocked.act (.advance span)) (.advance span) := by
  obtain ⟨queue, deadline, held, scheduled⟩ := follows.scheduled
  simp only [act, Document.wait, serveAll_schedules held scheduled.noFlush]
  refine follows.expire (not_isDeferred_advance span) rfl rfl (scheduled.advance span)
    (and_congr_left' ?_)
  rw [passes_iff events clocked.clock span]
  exact exists_congr fun time => and_congr_left' (scheduled.armed time).symm

theorem follows_act (follows : Follows events clocked) (event : Event) :
    Follows (events ++ [event]) (clocked.act event) ∧
      Outcome events clocked (clocked.act event) event := by
  cases event with
  | set name value =>
      exact follows.edit (clocked.document.changes_set name value) trivial nofun id
  | remove name =>
      exact follows.edit (clocked.document.changes_remove name) trivial nofun id
  | save delay =>
      cases delay with
      | zero => exact follows.saveNow
      | succ delay => exact follows.defer delay.succ_ne_zero
  | due => exact follows.due
  | advance span => exact follows.advance span

section
variable {path : Path} {bag : Bag} {disk : Disk} {now : Nat}

theorem path_run (clocked : Clocked) (events : List Event) :
    (clocked.run events).document.path = clocked.document.path := by
  induction events generalizing clocked with
  | nil => rfl
  | cons event rest ih =>
      refine (ih (clocked.act event)).trans ?_
      cases event with
      | set name value => exact (clocked.document.changes_set name value).path
      | remove name => exact (clocked.document.changes_remove name).path
      | save delay => exact (Document.sameBag_save clocked.document clocked.disk delay).2
      | due => exact (Document.sameBag_expire clocked.document clocked.disk _).2
      | advance span => exact (Document.sameBag_wait clocked.document clocked.disk _ _).2

theorem follows_run (accepts : disk.Accepts path) (bag : Bag) (now : Nat) (events : List Event) :
    Follows events ((start path bag disk now).run events) := by
  induction events using List.reverseRecOn with
  | nil => exact follows_start accepts bag now
  | append_singleton events event ih =>
      rw [run_concat]
      exact (follows_act ih event).1

theorem outcome_run (accepts : disk.Accepts path) (bag : Bag) (now : Nat) (events : List Event)
    (event : Event) : Outcome events ((start path bag disk now).run events)
      ((start path bag disk now).run (events ++ [event])) event := by
  rw [run_concat]
  exact (follows_act (follows_run accepts bag now events) event).2

theorem Wrote.contents? {next : Clocked} (accepts : disk.Accepts path) (bag : Bag) (now : Nat)
    (events : List Event) (wrote : Wrote ((start path bag disk now).run events) next) :
    next.disk.contents? path =
      .ok (some (Document.contents ((start path bag disk now).run events).document.bag)) := by
  have accepted := (follows_run accepts bag now events).accepts
  have same : ((start path bag disk now).run events).document.path = path := path_run _ events
  rw [wrote.disk, same]
  exact (same ▸ accepted).contents? _

theorem writesAt_concat {start : Clocked} {place : Nat} :
    WritesAt start (events ++ [event]) place ↔
      WritesAt start events place ∨
        place = events.length ∧ Writes events (start.run events) event := by
  rcases Nat.lt_trichotomy place events.length with inside | rfl | outside
  · have earlier : place ≠ events.length := Nat.ne_of_lt inside
    simp [WritesAt, List.getElem?_append_left inside, List.take_append_of_le_length (Nat.le_of_lt inside),
      earlier]
  · simp [WritesAt]
  · have none : (events ++ [event])[place]? = none :=
      List.getElem?_eq_none (by rw [List.length_append]; exact outside)
    simp [WritesAt, none, Nat.ne_of_gt outside, Nat.le_of_lt outside]

theorem writesAt_lt {start : Clocked} {place : Nat} (writes : WritesAt start events place) :
    place < events.length := by
  obtain ⟨event, there, -⟩ := writes
  exact (List.getElem?_eq_some_iff.mp there).1

theorem writes_run (accepts : disk.Accepts path) (bag : Bag) (now : Nat) (events : List Event) :
    ∃ places : List Nat, places.Pairwise (· < ·) ∧
      (∀ place, place ∈ places ↔ WritesAt (start path bag disk now) events place) ∧
      ((start path bag disk now).run events).document.writes = places.length := by
  induction events using List.reverseRecOn with
  | nil => exact ⟨[], .nil, fun place => ⟨nofun, fun writes => nomatch writesAt_lt writes⟩, rfl⟩
  | append_singleton events event ih =>
      obtain ⟨places, ordered, found, count⟩ := ih
      simp only [writesAt_concat]
      cases outcome_run accepts bag now events event with
      | rests notWritten rests =>
          refine ⟨places, ordered, fun place => ?_, rests.writes.trans count⟩
          rw [found]
          exact ⟨.inl, fun either => either.resolve_right fun new => notWritten new.2⟩
      | wrote written wrote =>
          refine ⟨places ++ [events.length], ?_, fun place => ?_, ?_⟩
          · refine List.pairwise_append.mpr ⟨ordered, List.pairwise_singleton _ _, ?_⟩
            intro place inside last here
            rw [List.mem_singleton.mp here]
            exact writesAt_lt ((found place).mp inside)
          · rw [List.mem_append, found, List.mem_singleton, and_iff_left written]
          · rw [wrote.writes, count, List.length_append]
            rfl

theorem isPending_run (accepts : disk.Accepts path) (bag : Bag) (now : Nat) (events : List Event) :
    ((start path bag disk now).run events).document.isPending = true ↔
      ∃ place delay, events[place]? = some (.save delay) ∧
        ∀ later, place ≤ later → ¬WritesAt (start path bag disk now) events later := by
  induction events using List.reverseRecOn with
  | nil => exact ⟨nofun, fun ⟨place, delay, there, _⟩ => nomatch there⟩
  | append_singleton events event ih =>
      simp only [writesAt_concat]
      cases outcome_run accepts bag now events event with
      | rests notWritten rests isPending =>
          rw [isPending, ih]
          constructor
          · rintro (⟨place, delay, there, unwritten⟩ | ⟨delay, deferred, rfl⟩)
            · have inside := (List.getElem?_eq_some_iff.mp there).1
              refine ⟨place, delay, (List.getElem?_append_left inside).trans there, ?_⟩
              rintro later after (old | new)
              · exact unwritten later after old
              · exact notWritten new.2
            · refine ⟨events.length, delay, by simp, ?_⟩
              rintro later after (old | new)
              · exact absurd (writesAt_lt old) (Nat.not_lt.mpr after)
              · exact notWritten new.2
          · rintro ⟨place, delay, there, unwritten⟩
            have inside := (List.getElem?_eq_some_iff.mp there).1
            rw [List.length_append] at inside
            rcases Nat.lt_succ_iff_lt_or_eq.mp inside with early | rfl
            · refine .inl ⟨place, delay, ?_, fun later after old => unwritten later after (.inl old)⟩
              rwa [List.getElem?_append_left early] at there
            · have here : event = .save delay := by simpa using there
              exact .inr ⟨delay, fun atOnce => notWritten (here ▸ atOnce), here⟩
      | wrote written wrote =>
          rw [wrote.isPending]
          refine ⟨nofun, fun ⟨place, delay, there, unwritten⟩ => ?_⟩
          have inside := (List.getElem?_eq_some_iff.mp there).1
          rw [List.length_append] at inside
          exact absurd (.inr ⟨rfl, written⟩) (unwritten events.length (Nat.le_of_lt_succ inside))

theorem lastDeferred_since (deferred : delay ≠ 0) (noSave : ∀ event ∈ since, ¬event.IsSave)
    (before : List Event) : LastDeferred (before ++ .save delay :: since) delay since :=
  ⟨deferred, fun event inside ⟨delay, _, same⟩ => noSave event inside ⟨delay, same⟩, before, rfl⟩

theorem reached_of_stands {before : List Event} (deferred : delay ≠ 0)
    (noSave : ∀ event ∈ since, ¬event.IsSave) (notDue : ¬Stands before)
    (stands : Stands (before ++ .save delay :: since)) : elapsed since = delay := by
  induction since using List.reverseRecOn with
  | nil =>
      have call : (Event.save delay).IsCall := trivial
      exact absurd ((stands_call call).mp stands) notDue
  | append_singleton since event ih =>
      have noSaveBefore : ∀ event ∈ since, ¬event.IsSave := fun event inside =>
        noSave event (List.mem_append_left _ inside)
      rw [← List.cons_append, ← List.append_assoc] at stands
      cases event with
      | set name value =>
          have call : (Event.set name value).IsCall := trivial
          rw [elapsed_concat]
          exact ih noSaveBefore ((stands_call call).mp stands)
      | remove name =>
          have call : (Event.remove name).IsCall := trivial
          rw [elapsed_concat]
          exact ih noSaveBefore ((stands_call call).mp stands)
      | save other => exact absurd ⟨other, rfl⟩ (noSave (.save other) (by simp))
      | due => exact absurd stands not_stands_due
      | advance span =>
          obtain ⟨other, between, awaited, same⟩ := (stands_other id 0).mp stands
          rw [List.append_assoc, List.cons_append] at awaited
          obtain ⟨rfl, rfl⟩ :=
            lastDeferred_unique (lastDeferred_since deferred noSave before) awaited.last
          exact Nat.add_left_cancel same

theorem Burst.rests_since (accepts : disk.Accepts path) (bag : Bag) (now : Nat) {before : List Event}
    (notDue : ¬Stands before) (deferred : delay ≠ 0) (noSave : ∀ event ∈ since, ¬event.IsSave)
    (coming : elapsed since ≤ delay) (unserved : Unserved delay since) :
    let here := (start path bag disk now).run before
    let next := (start path bag disk now).run (before ++ .save delay :: since)
    next.document.writes = here.document.writes ∧ next.document.isPending = true := by
  induction since using List.reverseRecOn with
  | nil =>
      cases outcome_run accepts bag now before (.save delay) with
      | rests _ rests isPending =>
          exact ⟨rests.writes, isPending.mpr (.inr ⟨delay, deferred, rfl⟩)⟩
      | wrote written => exact absurd written deferred
  | append_singleton since event ih =>
      rw [elapsed_concat] at coming
      obtain ⟨unservedBefore, notServed⟩ := unserved_concat.mp unserved
      have noSaveBefore : ∀ event ∈ since, ¬event.IsSave := fun event inside =>
        noSave event (List.mem_append_left _ inside)
      obtain ⟨writes, pending⟩ := ih noSaveBefore (Nat.le_of_add_right_le coming) unservedBefore
      rw [← List.cons_append, ← List.append_assoc]
      cases outcome_run accepts bag now (before ++ .save delay :: since) event with
      | rests _ rests isPending => exact ⟨rests.writes.trans writes, isPending.mpr (.inl pending)⟩
      | wrote written =>
          -- The deadline is still to come, and only serving it would write.
          cases event with
          | set | remove => exact written.elim
          | save other => exact absurd ⟨other, rfl⟩ (noSave (.save other) (by simp))
          | due =>
              have reached := reached_of_stands deferred noSaveBefore notDue written.1
              exact absurd reached (Nat.ne_of_lt (notServed rfl))
          | advance span =>
              obtain ⟨other, between, awaited, gone⟩ := written.1
              obtain ⟨rfl, rfl⟩ :=
                lastDeferred_unique (lastDeferred_since deferred noSaveBefore before) awaited.last
              exact absurd coming (Nat.not_le.mpr gone)

theorem Burst.writes_once (accepts : disk.Accepts path) (bag : Bag) (now : Nat)
    {before burst : List Event} (notDue : ¬Stands before) (isBurst : Burst burst) :
    let here := (start path bag disk now).run before
    let last := (start path bag disk now).run (before ++ burst)
    last.document.writes = here.document.writes + 1 ∧
      last.disk.contents? path = .ok (some (Document.contents last.document.bag)) := by
  induction isBurst generalizing before with
  | @passed delay span since deferred noSave coming unserved gone =>
      obtain ⟨writes, pending⟩ := rests_since accepts bag now notDue deferred noSave coming unserved
      have awaited : Awaited (before ++ .save delay :: since) delay since :=
        ⟨lastDeferred_since deferred noSave before, coming, unserved⟩
      rw [← List.append_assoc]
      cases outcome_run accepts bag now (before ++ .save delay :: since) (.advance span) with
      | rests notWritten => exact absurd ⟨⟨delay, since, awaited, gone⟩, pending⟩ notWritten
      | wrote _ wrote =>
          refine ⟨wrote.writes.trans (congrArg (· + 1) writes), ?_⟩
          rw [wrote.contents? accepts bag now, run_concat, act, (Document.sameBag_wait _ _ _ _).1]
  | @served delay since deferred noSave unserved reached =>
      obtain ⟨writes, pending⟩ :=
        rests_since accepts bag now notDue deferred noSave (Nat.le_of_eq reached) unserved
      have stands : Stands (before ++ .save delay :: since) :=
        ⟨_, [], (List.append_nil _).symm, nofun, delay, since,
          ⟨lastDeferred_since deferred noSave before, Nat.le_of_eq reached, unserved⟩, reached⟩
      rw [← List.append_assoc]
      cases outcome_run accepts bag now (before ++ .save delay :: since) .due with
      | rests notWritten => exact absurd ⟨stands, pending⟩ notWritten
      | wrote _ wrote =>
          refine ⟨wrote.writes.trans (congrArg (· + 1) writes), ?_⟩
          rw [wrote.contents? accepts bag now, run_concat, act, Document.serveDue,
            (Document.sameBag_expire _ _ _).1]
  | @more delay since rest deferred noSave coming _ ih =>
      obtain ⟨writes, -⟩ := rests_since accepts bag now notDue deferred noSave (Nat.le_of_lt coming)
        (unserved_of_lt coming)
      have stillNotDue : ¬Stands (before ++ .save delay :: since) := fun stands =>
        absurd (reached_of_stands deferred noSave notDue stands) (Nat.ne_of_lt coming)
      rw [← List.append_assoc]
      obtain ⟨once, contents⟩ := @ih (before ++ .save delay :: since) stillNotDue
      exact ⟨once.trans (congrArg (· + 1) writes), contents⟩

/-- The document is written where an event writes it, with the bag as it is there, and nowhere else.
It is marked from a save on until it is written. A burst of saves that begins when no deadline waits
to be served is written once, at its end. -/
theorem written_at_deadlines (accepts : disk.Accepts path) (bag : Bag) (now : Nat)
    (events : List Event) :
    let start := start path bag disk now
    let last := start.run events
    (∀ place,
      let here := start.run (events.take place)
      let next := start.run (events.take (place + 1))
      (WritesAt start events place → Wrote here next ∧
        next.disk.contents? path = .ok (some (Document.contents here.document.bag))) ∧
      (¬WritesAt start events place → Rests here next)) ∧
    (∃ places : List Nat, places.Pairwise (· < ·) ∧
      (∀ place, place ∈ places ↔ WritesAt start events place) ∧
      last.document.writes = places.length) ∧
    (last.document.isPending = true ↔ ∃ place delay, events[place]? = some (.save delay) ∧
      ∀ later, place ≤ later → ¬WritesAt start events later) ∧
    ∀ before burst, events = before ++ burst → ¬Stands before → Burst burst →
      last.document.writes = (start.run before).document.writes + 1 ∧
        last.disk.contents? path = .ok (some (Document.contents last.document.bag)) := by
  intro start last
  refine ⟨fun place => ?_, writes_run accepts bag now events, isPending_run accepts bag now events, ?_⟩
  · rcases Nat.lt_or_ge place events.length with inside | outside
    · have here : events[place]? = some events[place] := List.getElem?_eq_getElem inside
      have next : events.take (place + 1) = events.take place ++ [events[place]] := by
        simp
      have writesAt : WritesAt start events place ↔
          Writes (events.take place) (start.run (events.take place)) events[place] := by
        simp [WritesAt, here]
      rw [writesAt, next]
      have outcome := outcome_run accepts bag now (events.take place) events[place]
      constructor
      · intro written
        cases outcome with
        | rests notWritten => exact absurd written notWritten
        | wrote _ wrote => exact ⟨wrote, wrote.contents? accepts bag now _⟩
      · intro notWritten
        cases outcome with
        | rests _ rests => exact rests
        | wrote written => exact absurd written notWritten
    · rw [List.take_of_length_le outside, List.take_of_length_le (Nat.le_succ_of_le outside)]
      exact ⟨fun writes => absurd (writesAt_lt writes) (Nat.not_lt.mpr outside), fun _ => ⟨rfl, rfl⟩⟩
  · rintro before burst rfl notDue isBurst
    exact isBurst.writes_once accepts bag now notDue

end

def twoSaves : List Event :=
  [.set "a" (.boolean true), .save 100, .advance 99, .set "a" (.boolean false), .save 100,
    .advance 100, .due]

theorem burst_twoSaves : Burst (twoSaves.drop 1) := by
  refine @Burst.more 100 [.advance 99, .set "a" (.boolean false)] [.save 100, .advance 100, .due]
    (by decide) ?_ (by decide) (@Burst.served 100 [.advance 100] (by decide) ?_ ?_ rfl)
  · rintro event inside ⟨delay, rfl⟩
    simp at inside
  · rintro event inside ⟨delay, rfl⟩
    simp at inside
  · exact (@unserved_concat [] (.advance 100) 100).mpr ⟨unserved_nil 100, fun due => nomatch due⟩

theorem twoSaves_written_once :
    (Disk.ofDocument .empty).Accepts ⟨"/d.json"⟩ ∧ ¬Stands (twoSaves.take 1) ∧
      Burst (twoSaves.drop 1) ∧
      let last := (start ⟨"/d.json"⟩ .empty (.ofDocument .empty) 0).run twoSaves
      last.document.writes = 1 ∧
        last.disk.contents? ⟨"/d.json"⟩ = .ok (some (Document.contents last.document.bag)) ∧
        last.document.bag.value? "a" = some (.boolean false) := by
  have call : (Event.set "a" (.boolean true)).IsCall := trivial
  have notDue : ¬Stands (twoSaves.take 1) := fun stands =>
    nomatch (scheduled_nil 0).stands.mpr ((@stands_call [] _ call).mp stands)
  have written := written_at_deadlines (Disk.accepts_ofDocument .empty) .empty 0 twoSaves
  obtain ⟨writes, contents⟩ :=
    written.2.2.2 (twoSaves.take 1) (twoSaves.drop 1) rfl notDue burst_twoSaves
  exact ⟨Disk.accepts_ofDocument .empty, notDue, burst_twoSaves, writes, contents, rfl⟩

/-- A pending document would be written for a deadline that the clock has come to, whatever is done
while the clock stands there, beside the saves without a delay. -/
def WrittenAtDeadlines (mayBeDone : Event → Prop) : Prop :=
  ∀ (path : Path) (bag : Bag) (disk : Disk) (now : Nat) (early since calls : List Event)
      (delay span : Nat), disk.Accepts path → delay ≠ 0 → (∀ event ∈ since, ¬event.IsDeferred) →
    elapsed since = delay → (∀ event ∈ calls, event.IsCall ∧ mayBeDone event) → span ≠ 0 →
    let here := (start path bag disk now).run (early ++ .save delay :: since)
    here.document.isPending = true →
      (here.run (calls ++ [.advance span])).document.writes =
        here.document.writes + calls.countP (fun event => event matches .save 0) + 1

/-- Of what is done as the clock stands at a deadline, a save without a delay leaves nothing to be
written for it, and one with a delay that the writer takes first puts it off. -/
theorem not_written_at_deadline :
    ¬WrittenAtDeadlines (¬·.IsDeferred) ∧ ¬WrittenAtDeadlines (· ≠ .save 0) := by
  have still : ∀ event ∈ [Event.advance 100], ¬event.IsDeferred := by
    rintro event inside ⟨delay, -, rfl⟩
    simp at inside
  constructor
  · intro written
    have twice := written ⟨"/d.json"⟩ .empty (.ofDocument .empty) 0 [.set "a" (.boolean true)]
      [.advance 100] [.set "a" (.boolean false), .save 0] 100 1 (Disk.accepts_ofDocument .empty)
      (by decide) still rfl (by simp [Event.IsCall, Event.IsDeferred]) (by decide) rfl
    exact absurd twice (by decide)
  · intro written
    have once := written ⟨"/d.json"⟩ .empty (.ofDocument .empty) 0 [.set "a" (.boolean true)]
      [.advance 100] [.set "a" (.boolean false), .save 100] 100 1 (Disk.accepts_ofDocument .empty)
      (by decide) still rfl (by simp [Event.IsCall]) (by decide) rfl
    exact absurd once (by decide)

end Clocked
end Waymark
