import Waymark.Proofs.Backup.Retained
import Waymark.Proofs.Backup.Ticks
/-!
# Snapshots of a process

Each backup that a process makes gets a new tick, and so a name that none of its earlier backups
has. A snapshot keeps its contents until it is old enough for a later backup to remove it.
-/

namespace Waymark.Backup

open Disk

variable {disk copied after : Disk} {path target : Path} {place : Place} {contents : ByteArray}
  {hindrance : Hindrance} {ticker : Ticker} {today : Date} {clock age : Int}

theorem find_of_isFile (file : disk.isFile path = true) :
    ∃ place contents, disk.find path = .ok (place, .file contents) := by
  unfold isFile at file
  split at file
  · rename_i place contents found
    exact ⟨place, contents, found⟩
  · cases file

inductive Effect (hindrance : Hindrance) (disk : Disk) (ticker : Ticker) (today : Date)
    (clock : Int) (path : Path) (age : Int) :
    Disk × Ticker × Except Failure (Option Path) → Prop where
  | nothing {result : Except Failure (Option Path)} (none : ∀ target, result ≠ .ok (some target)) :
      Effect hindrance disk ticker today clock path age (disk, ticker, result)
  | failed {after : Disk} (kept : Extends disk after) (distinct : after.Distinct)
      (failure : Failure) :
      Effect hindrance disk ticker today clock path age
        (after, (ticker.next clock).1, .error failure)
  | made {after : Disk} {stem : String} {directory : Path} {contents : ByteArray}
      (named : path.stem? = some stem) (nearby : directory? path = some directory)
      (read : disk.contents path = .ok contents) (distinct : after.Distinct)
      (found : after.find (directory.child (name today (ticker.next clock).2 stem)) =
        .ok (name today (ticker.next clock).2 stem :: disk.goal directory, .file contents))
      (retained : Retained (Removed hindrance disk today age (disk.goal directory)) disk
        (disk.goal directory) (name today (ticker.next clock).2 stem) contents after) :
      Effect hindrance disk ticker today clock path age
        (after, (ticker.next clock).1,
          .ok (some (directory.child (name today (ticker.next clock).2 stem))))

theorem effect_makeDespite (distinct : disk.Distinct) (hindrance : Hindrance) (ticker : Ticker)
    (today : Date) (clock : Int) (path : Path) (age : Int) :
    Effect hindrance disk ticker today clock path age
      (makeDespite hindrance disk ticker today clock path age) := by
  cases skipped : age < 0 || !disk.isFile path with
  | true =>
      rw [makeDespite, skipped, if_pos rfl]
      refine .nothing fun target made => ?_
      cases made
  | false =>
  cases named : path.stem? with
  | none =>
      rw [makeDespite, skipped, if_neg Bool.false_ne_true, named]
      refine .nothing fun target made => ?_
      cases made
  | some stem =>
      obtain ⟨aged, file⟩ := Bool.or_eq_false_iff.mp skipped
      have aged : 0 ≤ age := Int.not_lt.mp (of_decide_eq_false aged)
      obtain ⟨place, contents, found⟩ := find_of_isFile (by simpa using file)
      obtain ⟨directory, nearby, beside⟩ := beside_of_find named found
      have whole := distinct_makeDespite distinct hindrance ticker today clock age named
      rcases done : disk.copyFile path
          (directory.child (name today (ticker.next clock).2 stem)) with ⟨copied, failure | _⟩
      · have result : makeDespite hindrance disk ticker today clock path age =
            (copied, (ticker.next clock).1, .error failure) := by
          rw [makeDespite, skipped, if_neg Bool.false_ne_true, named, nearby]
          dsimp only
          rw [done]
        rw [result] at whole ⊢
        exact .failed (extends_of_copyFile_error done) whole failure
      · obtain ⟨after, made, atTarget, atPath, -, retained⟩ :=
          makeDespite_of_copyFile distinct named nearby beside hindrance ticker today clock aged
            found done
        rw [made] at whole ⊢
        exact .made named nearby (contents_of_find found) whole atTarget retained

structure Request where
  path : Path
  today : Date
  clock : Int
  age : Int
  hindrance : Hindrance

structure Process where
  disk : Disk
  ticker : Ticker

/-- Between two backups other calls may get ticks, and other programs may change the disk. -/
inductive Event where
  | backup (request : Request)
  | tick (clock : Int)
  | edit (change : Disk → Disk)

namespace Process

def serve (process : Process) (request : Request) : Process × Except Failure (Option Path) :=
  let (disk, ticker, result) := makeDespite request.hindrance process.disk process.ticker
    request.today request.clock request.path request.age
  (⟨disk, ticker⟩, result)

def act (process : Process) : Event → Process
  | .backup request => (process.serve request).1
  | .tick clock => { process with ticker := (process.ticker.next clock).1 }
  | .edit change => { process with disk := change process.disk }

def run (process : Process) (events : List Event) : Process :=
  events.foldl act process

def results (process : Process) : List Event → List (Except Failure (Option Path))
  | [] => []
  | .backup request :: events =>
      (process.serve request).2 :: (process.serve request).1.results events
  | event :: events => (process.act event).results events

/-- A backup makes a snapshot, and removes what is at a place as an old backup. -/
def Drops (process : Process) (request : Request) (place : Place) : Prop :=
  ∃ directory made, directory? request.path = some directory ∧
    (process.serve request).2 = .ok (some made) ∧
    Removed request.hindrance process.disk request.today request.age
      (process.disk.goal directory) place

end Process

def LeavesAlone (place : Place) (change : Disk → Disk) : Prop :=
  ∀ disk, disk.Distinct → (change disk).Distinct ∧ (change disk).here = disk.here ∧
    KeepsDirectories disk (change disk) ∧ (change disk).node? place = disk.node? place

variable {process : Process} {date : Date} {tick : Int} {stem : String} {box : Place}

theorem fileName?_child_name (noSlash : '/' ∉ stem.toList) (directory : Path) (date : Date)
    (tick : Int) :
    (directory.child (name date tick stem)).fileName? = some (name date tick stem) := by
  have long : 2 < (name date tick stem).toList.length := by
    have ending : ".json".toList.length = 5 := rfl
    simp only [toList_name, List.length_append, List.length_cons, ending]
    omega
  refine Path.fileName?_child (slash_notMem_name noSlash date tick) ?_ ?_ directory
  · have notDot : (name date tick stem).toList ≠ ['.'] := fun same => by simp [same] at long
    have nonempty : (name date tick stem).toList ≠ [] := fun same => by simp [same] at long
    simp [Path.isPart, notDot, nonempty]
  · exact fun same => by simp [same] at long

structure Later (process : Process) (tick : Int) : Prop where
  distinct : process.disk.Distinct
  issued : tick ≤ process.ticker.last

theorem Later.act (later : Later process tick) {event : Event}
    (alone : ∀ change, event = .edit change → LeavesAlone place change) :
    Later (process.act event) tick := by
  have forward (clock : Int) : tick ≤ (process.ticker.next clock).1.last :=
    Int.le_trans later.issued (Int.le_of_lt (Ticker.last_lt_propose clock process.ticker.last))
  cases event with
  | backup request =>
      have effect := effect_makeDespite later.distinct request.hindrance process.ticker request.today
        request.clock request.path request.age
      simp only [Process.act, Process.serve]
      generalize makeDespite _ _ _ _ _ _ _ = outcome at effect ⊢
      cases effect with
      | nothing none => exact later
      | failed kept distinct failure => exact ⟨distinct, forward _⟩
      | made named nearby read distinct found retained => exact ⟨distinct, forward _⟩
  | tick clock => exact ⟨later.distinct, forward clock⟩
  | edit change => exact ⟨(alone change rfl process.disk later.distinct).1, later.issued⟩

theorem Later.name_ne (later : Later process tick) {clock : Int} {date' : Date} {stem' : String} :
    name date tick stem ≠ name date' (process.ticker.next clock).2 stem' := by
  intro same
  have more : process.ticker.last < (process.ticker.next clock).2 :=
    Ticker.last_lt_propose clock process.ticker.last
  exact absurd (tick_of_name same) (Int.ne_of_lt (Int.lt_of_le_of_lt later.issued more))

theorem Later.serve_ne (later : Later process tick)
    (named : target.fileName? = some (name date tick stem)) (request : Request) :
    (process.serve request).2 ≠ .ok (some target) := by
  have effect := effect_makeDespite later.distinct request.hindrance process.ticker request.today
    request.clock request.path request.age
  simp only [Process.serve]
  generalize makeDespite _ _ _ _ _ _ _ = outcome at effect ⊢
  cases effect with
  | nothing none => exact none target
  | failed kept distinct failure => nofun
  | made document nearby read distinct found retained =>
      intro same
      obtain rfl := Option.some.inj (Except.ok.inj same)
      rw [fileName?_child_name (Path.slash_notMem_stem document)] at named
      exact later.name_ne (Option.some.inj named).symm

theorem Later.find_act (later : Later process tick) {event : Event}
    (alone : ∀ change, event = .edit change → LeavesAlone (name date tick stem :: box) change)
    (found : process.disk.find target = .ok (name date tick stem :: box, .file contents)) :
    (process.act event).disk.find target = .ok (name date tick stem :: box, .file contents) ∨
      ∃ request, event = .backup request ∧ process.Drops request (name date tick stem :: box) := by
  cases event with
  | backup request =>
      have effect := effect_makeDespite later.distinct request.hindrance process.ticker request.today
        request.clock request.path request.age
      simp only [Process.act, Process.Drops, Process.serve, Event.backup.injEq, exists_eq_left']
      generalize makeDespite _ _ _ _ _ _ _ = outcome at effect ⊢
      cases effect with
      | nothing none => exact .inl found
      | failed kept distinct failure => exact .inl (find_of_extends kept found)
      | @made after stem' directory contents' document nearby read distinct snapshot retained =>
          have there := (goal_of_find found).2.2
          have apart : name date tick stem :: box ≠
              name request.today (process.ticker.next request.clock).2 stem' ::
                process.disk.goal directory :=
            fun same => later.name_ne (List.cons.inj same).1
          by_cases removed : Removed request.hindrance process.disk request.today request.age
              (process.disk.goal directory) (name date tick stem :: box)
          · exact .inr ⟨directory, _, nearby, rfl, removed⟩
          · refine .inl (find_of_keeps retained.here retained.keepsDirectories ?_ found)
            intro node inside
            rw [retained.others _ (retained.ne_box there) apart removed, inside]
  | tick clock => exact .inl found
  | edit change =>
      obtain ⟨-, here, keeps, same⟩ := alone change rfl process.disk later.distinct
      exact .inl (find_of_keeps here keeps (fun node inside => same.trans inside) found)

theorem Later.results_ne (later : Later process tick)
    (named : target.fileName? = some (name date tick stem)) {events : List Event}
    (alone : ∀ change, .edit change ∈ events → LeavesAlone place change) :
    ∀ result ∈ process.results events, result ≠ .ok (some target) := by
  induction events generalizing process with
  | nil => nofun
  | cons event events ih =>
      have next := later.act fun change same => alone change (same ▸ List.mem_cons_self)
      have after := ih next fun change inside => alone change (List.mem_cons_of_mem _ inside)
      cases event with
      | backup request => exact List.forall_mem_cons.mpr ⟨later.serve_ne named request, after⟩
      | tick clock => exact after
      | edit change => exact after

theorem Later.find_run (later : Later process tick)
    (found : process.disk.find target = .ok (name date tick stem :: box, .file contents))
    {events : List Event}
    (alone : ∀ change, .edit change ∈ events → LeavesAlone (name date tick stem :: box) change) :
    (process.run events).disk.find target = .ok (name date tick stem :: box, .file contents) ∨
      ∃ before request rest, events = before ++ .backup request :: rest ∧
        (process.run before).Drops request (name date tick stem :: box) := by
  induction events generalizing process with
  | nil => exact .inl found
  | cons event events ih =>
      have first (change : Disk → Disk) (same : event = .edit change) :=
        alone change (same ▸ List.mem_cons_self)
      rcases later.find_act first found with stays | ⟨request, rfl, drops⟩
      · rcases ih (later.act first) stays
          fun change inside => alone change (List.mem_cons_of_mem _ inside) with
          kept | ⟨before, request, rest, rfl, drops⟩
        · exact .inl kept
        · exact .inr ⟨event :: before, request, rest, rfl, drops⟩
      · exact .inr ⟨[], request, events, rfl, drops⟩

theorem later_serve (distinct : process.disk.Distinct) {request : Request}
    (made : (process.serve request).2 = .ok (some target)) :
    ∃ date tick stem box contents, Later (process.serve request).1 tick ∧
      target.fileName? = some (name date tick stem) ∧
      process.disk.contents request.path = .ok contents ∧
      (process.serve request).1.disk.find target =
        .ok (name date tick stem :: box, .file contents) := by
  have effect := effect_makeDespite distinct request.hindrance process.ticker request.today
    request.clock request.path request.age
  simp only [Process.serve] at made ⊢
  generalize makeDespite _ _ _ _ _ _ _ = outcome at effect made ⊢
  cases effect with
  | nothing none => exact absurd made (none target)
  | failed kept distinct failure => cases made
  | @made after stem directory contents document nearby read distinct found retained =>
      obtain rfl := Option.some.inj (Except.ok.inj made)
      exact ⟨_, _, stem, _, contents, ⟨distinct, Int.le_refl _⟩,
        fileName?_child_name (Path.slash_notMem_stem document) directory _ _, read, found⟩

theorem child_name_ne {directory directory' : Path} {date' : Date} {tick' : Int} {stem' : String}
    (noSlash : '/' ∉ stem.toList) (noSlash' : '/' ∉ stem'.toList) (other : tick ≠ tick') :
    directory.child (name date tick stem) ≠ directory'.child (name date' tick' stem') := by
  intro same
  have names := congrArg Path.fileName? same
  rw [fileName?_child_name noSlash, fileName?_child_name noSlash'] at names
  exact other (tick_of_name (Option.some.inj names))

/-- Names of different ticks are of different files, wherever these lie. -/
def TellsApart (tick tick' : Int) : Prop :=
  ∀ (directory directory' : Path) (date date' : Date) (stem stem' : String),
    '/' ∉ stem.toList → '/' ∉ stem'.toList →
      directory.child (name date tick stem) ≠ directory'.child (name date' tick' stem')

/-- A snapshot has the contents of the document. Whatever happens afterwards, no backup returns its
path again, and it stays until one removes it as an old backup. -/
structure Snapshot (process : Process) (request : Request) (target : Path) (place : Place)
    (contents : ByteArray) : Prop where
  read : process.disk.contents request.path = .ok contents
  found : (process.serve request).1.disk.find target = .ok (place, .file contents)
  unwritten : ∀ events, (∀ change, .edit change ∈ events → LeavesAlone place change) →
    ∀ result ∈ (process.serve request).1.results events, result ≠ .ok (some target)
  stays : ∀ events, (∀ change, .edit change ∈ events → LeavesAlone place change) →
    ((process.serve request).1.run events).disk.find target = .ok (place, .file contents) ∨
      ∃ before request' rest, events = before ++ .backup request' :: rest ∧
        ((process.serve request).1.run before).Drops request' place

def TellsDate (date : Date) : Prop :=
  ∀ tick stem, date? (name date tick stem) = some date

/-- However calls for ticks interleave, each gets a later tick than those before it. Ticks tell the
names of snapshots apart, so that no backup of a process writes where an earlier one did, and the
date of a snapshot is read from its name. -/
theorem snapshots_stay_apart :
    (∀ start contest : Contest, start.handedOut = [] →
      Relation.ReflTransGen Contest.Step start contest → start.InOrder contest) ∧
    (∀ tick tick', tick ≠ tick' → TellsApart tick tick') ∧
    (∀ (process : Process) (request : Request) (target : Path), process.disk.Distinct →
      (process.serve request).2 = .ok (some target) →
        ∃ place contents, Snapshot process request target place contents) ∧
    ∀ date : Date, date.Valid → TellsDate date := by
  refine ⟨fun _ _ => Contest.inOrder_run,
    fun _ _ other _ _ _ _ _ _ noSlash noSlash' => child_name_ne noSlash noSlash' other,
    fun process request target distinct made => ?_, fun _ valid => date?_name valid⟩
  obtain ⟨date, tick, stem, box, contents, later, named, read, found⟩ := later_serve distinct made
  exact ⟨_, contents, read, found, fun _ alone => later.results_ne named alone,
    fun _ alone => later.find_run found alone⟩

theorem run_twoCalls : ∃ attempts, Relation.ReflTransGen Contest.Step ⟨⟨4⟩, fun _ => none, []⟩
    ⟨⟨6⟩, attempts, [⟨1, 3, 6⟩, ⟨0, 5, 5⟩]⟩ := by
  refine ⟨_, .tail (.tail (.tail (.tail (.tail .refl
    (.start 0 5 4 rfl)) (.start 1 3 4 ?_)) (.win 0 ⟨5, 4⟩ ⟨5⟩ ?_ rfl))
    (.lose 1 ⟨3, 4⟩ 5 ?_)) (.win 1 ⟨3, 5⟩ ⟨6⟩ ?_ rfl)⟩
  all_goals simp

def twice : Request :=
  ⟨⟨"/a.json"⟩, ⟨2026, 10, 19⟩, 3, 30 * day, noHindrance⟩

theorem snapshots_stay_apart_twice :
    (∃ attempts, Relation.ReflTransGen Contest.Step ⟨⟨4⟩, fun _ => none, []⟩
        ⟨⟨6⟩, attempts, [⟨1, 3, 6⟩, ⟨0, 5, 5⟩]⟩ ∧
      Contest.Serial ⟨4⟩ [⟨1, 3, 6⟩, ⟨0, 5, 5⟩] ⟨6⟩) ∧
    (Process.serve ⟨keptDisk, ⟨4⟩⟩ twice).2 = .ok (some ⟨"/a.bak/2026_10_19.5.a.json"⟩) ∧
    (Process.serve (Process.serve ⟨keptDisk, ⟨4⟩⟩ twice).1 twice).2 ≠
      .ok (some ⟨"/a.bak/2026_10_19.5.a.json"⟩) ∧
    date? (name ⟨2026, 10, 19⟩ 5 "a.2026") = some ⟨2026, 10, 19⟩ := by
  obtain ⟨ticks, -, snapshots, dates⟩ := snapshots_stay_apart
  obtain ⟨attempts, run⟩ := run_twoCalls
  have distinct : keptDisk.Distinct := by
    unfold Disk.Distinct keptDisk
    decide
  have made : (Process.serve ⟨keptDisk, ⟨4⟩⟩ twice).2 =
      .ok (some ⟨"/a.bak/2026_10_19.5.a.json"⟩) := rfl
  obtain ⟨place, contents, snapshot⟩ := snapshots ⟨keptDisk, ⟨4⟩⟩ twice _ distinct made
  have second := snapshot.unwritten [.backup twice] (by simp)
  exact ⟨⟨attempts, run, (ticks _ _ rfl run).serial⟩, made, second _ List.mem_cons_self,
    dates ⟨2026, 10, 19⟩ (by decide) 5 "a.2026"⟩

end Waymark.Backup
