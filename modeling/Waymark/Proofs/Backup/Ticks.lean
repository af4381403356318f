import Mathlib.Logic.Function.Basic
import Mathlib.Logic.Relation
import Waymark.Backup
/-!
# Ticks for calls that run at the same time

A call for a tick reads the last tick, makes a proposal and exchanges the one for the other if no
other call was faster; else it makes a new proposal. However the calls interleave, they get the
ticks that they would have got one after another, in the order of their exchanges.
-/

namespace Waymark

namespace Ticker

variable {ticker after : Ticker} {clock seen : Int}

theorem last_lt_propose (clock last : Int) : last < propose clock last :=
  Int.lt_of_lt_of_le (Int.lt_succ last) (Int.le_max_right clock (last + 1))

/-- An exchange that succeeds gives what an undisturbed call would get at this moment. -/
theorem next_of_exchange (taken : ticker.exchange seen (propose clock seen) = some after) :
    ticker.next clock = (after, propose clock seen) := by
  unfold exchange at taken
  split at taken
  · rename_i same
    cases taken
    rw [next, same]
  · cases taken

end Ticker

/-- A call that has read the clock and, at some time, the last tick. -/
structure Attempt where
  clock : Int
  seen : Int

structure Handed where
  caller : Nat
  clock : Int
  tick : Int

/-- Calls for ticks. Of the ticks that were handed out the latest comes first. -/
structure Contest where
  ticker : Ticker
  attempts : Nat → Option Attempt
  handedOut : List Handed

namespace Contest

open Ticker

/-- What a call does without another one in between. What it reads of the last tick may be out of
date, and its exchange may fail for no reason. -/
inductive Step (contest : Contest) : Contest → Prop where
  | start (caller : Nat) (clock seen : Int) (idle : contest.attempts caller = none) :
      Step contest { contest with
        attempts := Function.update contest.attempts caller (some ⟨clock, seen⟩) }
  | lose (caller : Nat) (attempt : Attempt) (seen : Int)
      (waiting : contest.attempts caller = some attempt) :
      Step contest { contest with
        attempts := Function.update contest.attempts caller (some ⟨attempt.clock, seen⟩) }
  | win (caller : Nat) (attempt : Attempt) (ticker : Ticker)
      (waiting : contest.attempts caller = some attempt)
      (taken : contest.ticker.exchange attempt.seen (propose attempt.clock attempt.seen) =
        some ticker) :
      Step contest
        ⟨ticker, Function.update contest.attempts caller none,
          ⟨caller, attempt.clock, propose attempt.clock attempt.seen⟩ :: contest.handedOut⟩

inductive Serial (start : Ticker) : List Handed → Ticker → Prop where
  | nil : Serial start [] start
  | cons {earlier : List Handed} {ticker : Ticker} (serial : Serial start earlier ticker)
      (caller : Nat) (clock : Int) :
      Serial start (⟨caller, clock, (ticker.next clock).2⟩ :: earlier) (ticker.next clock).1

variable {start contest later : Contest}

theorem serial_step {first : Ticker} (serial : Serial first contest.handedOut contest.ticker)
    (step : Step contest later) : Serial first later.handedOut later.ticker := by
  cases step with
  | start caller clock seen idle => exact serial
  | lose caller attempt seen waiting => exact serial
  | win caller attempt ticker waiting taken =>
      have next := next_of_exchange taken
      have handed := serial.cons caller attempt.clock
      rwa [next] at handed

/-- However the calls interleave, they could have been made one after another. -/
theorem serial_run (fresh : start.handedOut = [])
    (run : Relation.ReflTransGen Step start contest) :
    Serial start.ticker contest.handedOut contest.ticker := by
  induction run with
  | refl =>
      rw [fresh]
      exact .nil
  | tail _ step ih => exact serial_step ih step

theorem Serial.tick_le {first last : Ticker} {handedOut : List Handed}
    (serial : Serial first handedOut last) :
    first.last ≤ last.last ∧ ∀ handed ∈ handedOut, handed.tick ≤ last.last := by
  induction serial with
  | nil => simp
  | @cons earlier ticker serial caller clock ih =>
      have more : ticker.last < (ticker.next clock).1.last := last_lt_propose clock ticker.last
      refine ⟨by omega, List.forall_mem_cons.mpr ⟨Int.le_refl _, fun handed inside => ?_⟩⟩
      have := ih.2 handed inside
      omega

theorem Serial.increasing {first last : Ticker} {handedOut : List Handed}
    (serial : Serial first handedOut last) :
    handedOut.Pairwise fun later earlier => earlier.tick < later.tick := by
  induction serial with
  | nil => exact .nil
  | @cons earlier ticker serial caller clock ih =>
      have more : ticker.last < (ticker.next clock).2 := last_lt_propose clock ticker.last
      refine List.pairwise_cons.mpr ⟨fun handed inside => ?_, ih⟩
      have := serial.tick_le.2 handed inside
      exact Int.lt_of_le_of_lt this more

theorem Serial.last_le {first last : Ticker} {handedOut : List Handed} {limit : Int}
    (serial : Serial first handedOut last) (start : first.last ≤ limit)
    (clocks : ∀ handed ∈ handedOut, handed.clock ≤ limit) :
    last.last ≤ limit + handedOut.length := by
  induction serial with
  | nil => simpa using start
  | @cons earlier ticker serial caller clock ih =>
      obtain ⟨here, before⟩ := List.forall_mem_cons.mp clocks
      have := ih before
      simp only [Ticker.next, propose, List.length_cons]
      simp only at here
      omega

/-- The ticks that were handed out grow and are those of calls one after another. They do not run away
from the clocks: with each call they are ahead by one more at most. -/
structure InOrder (start contest : Contest) : Prop where
  serial : Serial start.ticker contest.handedOut contest.ticker
  increasing : contest.handedOut.Pairwise fun later earlier => earlier.tick < later.tick
  bounded : ∀ limit, start.ticker.last ≤ limit →
    (∀ handed ∈ contest.handedOut, handed.clock ≤ limit) →
      contest.ticker.last ≤ limit + contest.handedOut.length

theorem inOrder_run (fresh : start.handedOut = [])
    (run : Relation.ReflTransGen Step start contest) : start.InOrder contest :=
  have serial := serial_run fresh run
  ⟨serial, serial.increasing, fun _ => serial.last_le⟩

end Contest

end Waymark
