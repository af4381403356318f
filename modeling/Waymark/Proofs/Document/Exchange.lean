import Waymark.Document
/-!
# Documents in use

Calls of the owner and the task of the writer take their steps in any order. Whoever wants to write
waits for one lock; under the lock the mark of pending saves is taken away, the bag is read and the
file is replaced, and between these steps the others go on. A call that sets, removes or saves is
one step, and a save without a delay, a flush and a drop wait for a write of their own.

The states of the bag are numbered in the order in which it goes through them.
-/

namespace Waymark

inductive Purpose where
  | save
  | flush
  | drop
  deriving DecidableEq

/-- A call that returns later, and the state of the bag at the last save before it. -/
structure Call where
  purpose : Purpose
  needs : Option Nat

structure Answer where
  call : Call
  result : Except Failure Unit
  wasMissed : Bool

inductive Party where
  | task
  | call (call : Call)

inductive Task where
  | idle
  | answering
  | stopped
  | writing (next : Task)

def Task.afterWrite : Task → Task
  | .writing next => next
  | task => task

structure Write where
  party : Party
  snapshot : Option (Nat × Bag)

structure Exchange where
  document : Document
  disk : Disk
  isOpen : Bool
  task : Task
  waiting : List Party
  asked : List Call
  lock : Option Write
  past : List Bag
  saved : Option Nat
  filed : Option Nat
  /-- Whether a write that began after the last save has failed. -/
  isMissed : Bool
  hasFailed : Bool
  answers : List Answer

inductive Move where
  | set (name : String) (value : Json)
  | remove (name : String)
  | save (delay : Nat)
  | flush
  | drop
  | take (now : Nat)
  | expire
  | stop
  | answer
  | pass (party : Party)
  | begin (party : Party)
  | read
  | finish (trouble : Disk.Trouble)

namespace Exchange

def start (document : Document) (disk : Disk) : Exchange :=
  { document, disk, isOpen := true, task := .idle, waiting := [], asked := [], lock := none,
    past := [], saved := none, filed := none, isMissed := false, hasFailed := false, answers := [] }

variable (exchange : Exchange)

def number : Nat :=
  exchange.past.length

def states : List Bag :=
  exchange.past ++ [exchange.document.bag]

def change (outcome : Document × Bool) : Exchange :=
  { exchange with
    document := outcome.1
    past := if outcome.2 then exchange.past ++ [exchange.document.bag] else exchange.past }

def mark : Exchange :=
  { exchange with
    document := { exchange.document with isPending := true }
    saved := some exchange.number
    isMissed := false }

def ask (request : Request) : Exchange :=
  { exchange with document := exchange.document.ask request }

def want (party : Party) : Exchange :=
  { exchange with waiting := exchange.waiting ++ [party] }

def save (delay : Nat) : Exchange :=
  if delay = 0 || exchange.document.writer.isNone then
    exchange.mark.want (.call ⟨.save, some exchange.number⟩)
  else exchange.mark.ask (.schedule delay)

def flush : Exchange :=
  if exchange.document.writer.isNone then exchange.want (.call ⟨.flush, exchange.saved⟩)
  else { exchange.ask .flush with asked := exchange.asked ++ [⟨.flush, exchange.saved⟩] }

def drop : Exchange :=
  { exchange.want (.call ⟨.drop, exchange.saved⟩) with isOpen := false }

def fire (next : Task) : Exchange :=
  { exchange with
    document := exchange.document.withDeadline none
    task := .writing next }.want .task

def serve (now : Nat) (rest : List Request) (deadline : Option Nat) : Request → Exchange
  | .schedule delay =>
      { exchange with
        document := { exchange.document with writer := some ⟨rest, some (now + delay)⟩ } }
  | .flush =>
      { exchange with
        document := { exchange.document with writer := some ⟨rest, deadline⟩ } }.fire .answering

def halt : Option Nat → Exchange
  | some _ => exchange.fire .stopped
  | none => { exchange with task := .stopped }

def acknowledge : Exchange :=
  { exchange with
    task := .idle
    asked := exchange.asked.drop 1
    waiting := exchange.waiting ++ (exchange.asked.take 1).map .call }

def release (party : Party) (result : Except Failure Unit) : Exchange :=
  match party with
  | .task => { exchange with task := exchange.task.afterWrite }
  | .call call =>
      { exchange with answers := ⟨call, result, exchange.isMissed⟩ :: exchange.answers }

def enter (party : Party) (others : List Party) : Exchange :=
  { exchange with
    document := exchange.document.beginWrite
    waiting := others
    lock := some ⟨party, none⟩ }

def look (party : Party) : Exchange :=
  { exchange with lock := some ⟨party, some (exchange.number, exchange.document.bag)⟩ }

def settle (number : Nat) (course : Disk.Course) : Exchange :=
  let left := { exchange with
    document := exchange.document.endWrite course.result
    disk := course.disk
    lock := none }
  match course.result with
  | .ok () => { left with filed := some number }
  | .error _ => { left with isMissed := !exchange.document.isPending, hasFailed := true }

def finish (party : Party) (number : Nat) (bag : Bag) (trouble : Disk.Trouble) : Exchange :=
  let course := exchange.disk.replaceCourse trouble exchange.document.path (Document.contents bag)
  (exchange.settle number course).release party course.result

end Exchange

open Exchange in
inductive Step : Exchange → Move → Exchange → Prop where
  | set {exchange : Exchange} (name : String) (value : Json) (isOpen : exchange.isOpen = true) :
      Step exchange (.set name value) (exchange.change (exchange.document.set name value))
  | remove {exchange : Exchange} (name : String) (isOpen : exchange.isOpen = true) :
      Step exchange (.remove name) (exchange.change (exchange.document.remove name))
  | save {exchange : Exchange} (delay : Nat) (isOpen : exchange.isOpen = true) :
      Step exchange (.save delay) (exchange.save delay)
  | flush {exchange : Exchange} (isOpen : exchange.isOpen = true) :
      Step exchange .flush exchange.flush
  /-- A document is dropped when none of its calls goes on. -/
  | drop {exchange : Exchange} (isOpen : exchange.isOpen = true) (noneAsked : exchange.asked = [])
      (noneWaiting : ∀ call, .call call ∉ exchange.waiting)
      (noneWriting : ∀ write ∈ exchange.lock, ∀ call, write.party ≠ .call call) :
      Step exchange .drop exchange.drop
  | take {exchange : Exchange} {request : Request} {rest : List Request} {deadline : Option Nat}
      (now : Nat) (idle : exchange.task = .idle)
      (first : exchange.document.writer = some ⟨request :: rest, deadline⟩) :
      Step exchange (.take now) (exchange.serve now rest deadline request)
  /-- The deadline may come at any time; real time only allows less. -/
  | expire {exchange : Exchange} {queue : List Request} {deadline : Nat}
      (idle : exchange.task = .idle)
      (armed : exchange.document.writer = some ⟨queue, some deadline⟩) :
      Step exchange .expire (exchange.fire .idle)
  | stop {exchange : Exchange} {deadline : Option Nat} (isClosed : exchange.isOpen = false)
      (idle : exchange.task = .idle)
      (empty : exchange.document.writer = some ⟨[], deadline⟩) :
      Step exchange .stop (exchange.halt deadline)
  | answer {exchange : Exchange} (answering : exchange.task = .answering) :
      Step exchange .answer exchange.acknowledge
  | pass {exchange : Exchange} {party : Party} {before after : List Party}
      (free : exchange.lock = none) (clean : exchange.document.isPending = false)
      (next : exchange.waiting = before ++ party :: after) :
      Step exchange (.pass party)
        ({ exchange with waiting := before ++ after }.release party (.ok ()))
  | begin {exchange : Exchange} {party : Party} {before after : List Party}
      (free : exchange.lock = none) (pending : exchange.document.isPending = true)
      (next : exchange.waiting = before ++ party :: after) :
      Step exchange (.begin party) (exchange.enter party (before ++ after))
  | read {exchange : Exchange} {party : Party} (begun : exchange.lock = some ⟨party, none⟩) :
      Step exchange .read (exchange.look party)
  | finish {exchange : Exchange} {party : Party} {number : Nat} {bag : Bag}
      (trouble : Disk.Trouble) (begun : exchange.lock = some ⟨party, some (number, bag)⟩) :
      Step exchange (.finish trouble) (exchange.finish party number bag trouble)

theorem Step.pass_first {exchange : Exchange} {party : Party} {others : List Party}
    (free : exchange.lock = none) (clean : exchange.document.isPending = false)
    (next : exchange.waiting = party :: others) :
    Step exchange (.pass party) ({ exchange with waiting := others }.release party (.ok ())) :=
  @Step.pass exchange party [] others free clean next

theorem Step.begin_first {exchange : Exchange} {party : Party} {others : List Party}
    (free : exchange.lock = none) (pending : exchange.document.isPending = true)
    (next : exchange.waiting = party :: others) :
    Step exchange (.begin party) (exchange.enter party others) :=
  @Step.begin exchange party [] others free pending next

inductive Run : Exchange → List Move → Exchange → Prop where
  | nil (exchange : Exchange) : Run exchange [] exchange
  | cons {first second last : Exchange} {move : Move} {moves : List Move}
      (step : Step first move second) (rest : Run second moves last) :
      Run first (move :: moves) last

theorem Run.split {first last : Exchange} {before : List Move} {move : Move} {after : List Move}
    (run : Run first (before ++ move :: after) last) :
    ∃ here next, Run first before here ∧ Step here move next ∧ Run next after last := by
  induction before generalizing first with
  | nil =>
      cases run with
      | cons step rest => exact ⟨first, _, .nil first, step, rest⟩
  | cons other others ih =>
      cases run with
      | cons step rest =>
          obtain ⟨here, next, early, found, late⟩ := ih rest
          exact ⟨here, next, .cons step early, found, late⟩

end Waymark
