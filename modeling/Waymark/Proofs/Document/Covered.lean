import Waymark.Proofs.Document.Contents
import Waymark.Proofs.Document.Exchange
/-!
# Saved states and written states

What every step keeps: a pending save is attended to, the file holds the state that was written
last, and a state that was saved is written, pending or being written unless a write has failed
since.
-/

namespace Waymark

structure Document.Changes (document : Document) (outcome : Document × Bool) : Prop where
  isPending : outcome.1.isPending = document.isPending
  writer : outcome.1.writer = document.writer
  path : outcome.1.path = document.path
  writes : outcome.1.writes = document.writes
  bag : outcome.2 = false → outcome.1.bag = document.bag

theorem Document.changes_set (document : Document) (name : String) (value : Json) :
    document.Changes (document.set name value) := by
  unfold Document.set
  split
  · exact ⟨rfl, rfl, rfl, rfl, nofun⟩
  · exact ⟨rfl, rfl, rfl, rfl, fun _ => rfl⟩

theorem Document.changes_remove (document : Document) (name : String) :
    document.Changes (document.remove name) := by
  unfold Document.remove
  split
  · exact ⟨rfl, rfl, rfl, rfl, nofun⟩
  · exact ⟨rfl, rfl, rfl, rfl, fun _ => rfl⟩

theorem Document.endWrite_eq (document : Document) (result : Except Failure Unit) :
    (document.endWrite result).isPending = document.isPending ∧
      (document.endWrite result).writer = document.writer ∧
      (document.endWrite result).path = document.path ∧
      (document.endWrite result).bag = document.bag := by
  cases result <;> exact ⟨rfl, rfl, rfl, rfl⟩

namespace Exchange

variable {exchange next : Exchange} {move : Move}

def HasRequest (exchange : Exchange) : Prop :=
  ∃ writer ∈ exchange.document.writer, writer.queue ≠ []

def IsArmed (exchange : Exchange) : Prop :=
  ∃ writer ∈ exchange.document.writer, writer.deadline ≠ none

def InProgress (exchange : Exchange) : Prop :=
  exchange.lock ≠ none ∨ exchange.waiting ≠ []

def Attended (exchange : Exchange) : Prop :=
  exchange.document.isPending = true →
    exchange.HasRequest ∨ exchange.IsArmed ∨ exchange.waiting ≠ []

theorem hasRequest_ask (request : Request) (writing : exchange.document.writer.isNone = false) :
    (exchange.ask request).HasRequest := by
  obtain ⟨writer, there⟩ := Option.isSome_iff_exists.mp (Option.isNone_eq_false_iff.mp writing)
  refine ⟨⟨writer.queue ++ [request], writer.deadline⟩, ?_, by simp⟩
  simp [ask, Document.ask, there]

theorem want_waiting (exchange : Exchange) (party : Party) : (exchange.want party).waiting ≠ [] := by
  simp [want]

theorem Attended.of_same (attended : exchange.Attended)
    (isPending : next.document.isPending = exchange.document.isPending)
    (writer : next.document.writer = exchange.document.writer)
    (waiting : next.waiting = exchange.waiting) : next.Attended := by
  intro pending
  have before := attended (isPending ▸ pending)
  simpa only [HasRequest, IsArmed, writer, waiting] using before

theorem Attended.change (attended : exchange.Attended) {outcome : Document × Bool}
    (changes : exchange.document.Changes outcome) : (exchange.change outcome).Attended :=
  attended.of_same changes.isPending changes.writer rfl

@[simp] theorem release_document (exchange : Exchange) (party : Party)
    (result : Except Failure Unit) : (exchange.release party result).document = exchange.document := by
  cases party <;> rfl

@[simp] theorem release_waiting (exchange : Exchange) (party : Party)
    (result : Except Failure Unit) : (exchange.release party result).waiting = exchange.waiting := by
  cases party <;> rfl

@[simp] theorem release_disk (exchange : Exchange) (party : Party)
    (result : Except Failure Unit) : (exchange.release party result).disk = exchange.disk := by
  cases party <;> rfl

theorem settle_eq (exchange : Exchange) (number : Nat) (course : Disk.Course) :
    exchange.settle number course = { exchange with
      document := exchange.document.endWrite course.result
      disk := course.disk
      lock := none
      filed := if course.result.isOk then some number else exchange.filed
      isMissed := if course.result.isOk then exchange.isMissed else !exchange.document.isPending
      hasFailed := !course.result.isOk || exchange.hasFailed } := by
  unfold settle
  cases course.result <;> rfl

theorem attended_step (attended : exchange.Attended) (step : Step exchange move next) :
    next.Attended := by
  cases step with
  | set name value _ => exact attended.change (exchange.document.changes_set name value)
  | remove name _ => exact attended.change (exchange.document.changes_remove name)
  | save delay _ =>
      intro _
      unfold save
      split
      · exact .inr (.inr (want_waiting _ _))
      · rename_i deferred
        simp only [Bool.or_eq_true, not_or, Bool.not_eq_true] at deferred
        exact .inl (hasRequest_ask _ deferred.2)
  | flush _ =>
      intro _
      unfold flush
      split
      · exact .inr (.inr (want_waiting _ _))
      · rename_i writing
        exact .inl (hasRequest_ask .flush (Bool.not_eq_true _ ▸ writing))
  | drop _ _ _ _ => exact fun _ => .inr (.inr (want_waiting _ _))
  | @take request rest deadline now idle first =>
      intro _
      cases request with
      | schedule delay => exact .inr (.inl ⟨_, rfl, nofun⟩)
      | flush => exact .inr (.inr (want_waiting _ _))
  | expire idle armed => exact fun _ => .inr (.inr (want_waiting _ _))
  | @stop deadline isClosed idle empty =>
      cases deadline with
      | none => exact attended
      | some time => exact fun _ => .inr (.inr (want_waiting _ _))
  | answer answering =>
      intro pending
      refine (attended pending).imp_right (Or.imp_right fun some none => some ?_)
      exact (List.append_eq_nil_iff.mp none).1
  | pass free clean here =>
      intro pending
      rw [release_document, clean] at pending
      cases pending
  | begin free pending here => nofun
  | read begun => exact attended
  | finish trouble begun =>
      unfold finish
      obtain ⟨isPending, writer, -, -⟩ := exchange.document.endWrite_eq
        (exchange.disk.replaceCourse trouble exchange.document.path _).result
      refine attended.of_same ?_ ?_ ?_
      · rw [release_document, settle_eq, isPending]
      · rw [release_document, settle_eq, writer]
      · rw [release_waiting, settle_eq]

structure Unmoved (exchange next : Exchange) : Prop where
  bag : next.document.bag = exchange.document.bag
  isPending : next.document.isPending = exchange.document.isPending
  path : next.document.path = exchange.document.path
  writes : next.document.writes = exchange.document.writes
  disk : next.disk = exchange.disk
  lock : next.lock = exchange.lock
  past : next.past = exchange.past
  saved : next.saved = exchange.saved
  filed : next.filed = exchange.filed
  isMissed : next.isMissed = exchange.isMissed
  hasFailed : next.hasFailed = exchange.hasFailed

/-- What the calls and the task do among themselves, without the lock. -/
theorem unmoved_besides (exchange : Exchange) (writer : Option Writer) (isOpen : Bool) (task : Task)
    (waiting : List Party) (asked : List Call) (answers : List Answer) :
    exchange.Unmoved
      { exchange with
        document := { exchange.document with writer }, isOpen, task, waiting, asked, answers } :=
  ⟨rfl, rfl, rfl, rfl, rfl, rfl, rfl, rfl, rfl, rfl, rfl⟩

theorem unmoved_ask (exchange : Exchange) (request : Request) :
    exchange.Unmoved (exchange.ask request) := by
  unfold ask Document.ask
  split <;> exact exchange.unmoved_besides ..

theorem unmoved_want (exchange : Exchange) (party : Party) :
    exchange.Unmoved (exchange.want party) :=
  exchange.unmoved_besides ..

theorem unmoved_flush (exchange : Exchange) : exchange.Unmoved exchange.flush := by
  unfold flush
  split
  · exact unmoved_want exchange _
  · obtain ⟨bag, isPending, path, writes, disk, lock, past, saved, filed, isMissed, hasFailed⟩ :=
      unmoved_ask exchange .flush
    exact ⟨bag, isPending, path, writes, disk, lock, past, saved, filed, isMissed, hasFailed⟩

theorem unmoved_release (exchange : Exchange) (party : Party) (result : Except Failure Unit) :
    exchange.Unmoved (exchange.release party result) := by
  cases party <;> exact exchange.unmoved_besides ..

theorem unmoved_save (exchange : Exchange) (delay : Nat) :
    exchange.mark.Unmoved (exchange.save delay) := by
  unfold save
  split
  · exact unmoved_want exchange.mark _
  · exact unmoved_ask exchange.mark _

def Orders : Move → Prop
  | .flush | .drop | .take _ | .expire | .stop | .answer | .pass _ => True
  | _ => False

theorem unmoved_step (step : Step exchange move next) (orders : Orders move) :
    exchange.Unmoved next := by
  cases step with
  | flush _ => exact exchange.unmoved_flush
  | drop | expire | answer => exact exchange.unmoved_besides ..
  | @take request => cases request <;> exact exchange.unmoved_besides ..
  | @stop deadline => cases deadline <;> exact exchange.unmoved_besides ..
  | @pass party => cases party <;> exact exchange.unmoved_besides ..
  | set | remove | save | begin | read | finish => exact orders.elim

inductive Effect (exchange : Exchange) : Exchange → Prop where
  | change {outcome : Document × Bool} (changes : exchange.document.Changes outcome) :
      Effect exchange (exchange.change outcome)
  | save {next : Exchange} (unmoved : exchange.mark.Unmoved next) : Effect exchange next
  | enter (free : exchange.lock = none) (pending : exchange.document.isPending = true)
      (party : Party) (others : List Party) : Effect exchange (exchange.enter party others)
  | look {party : Party} (begun : exchange.lock = some ⟨party, none⟩) :
      Effect exchange (exchange.look party)
  | finish {party : Party} {number : Nat} {bag : Bag} (trouble : Disk.Trouble)
      (begun : exchange.lock = some ⟨party, some (number, bag)⟩) :
      Effect exchange (exchange.finish party number bag trouble)
  | order {next : Exchange} (unmoved : exchange.Unmoved next) : Effect exchange next

theorem effect_of_step (step : Step exchange move next) : exchange.Effect next := by
  by_cases orders : Orders move
  · exact .order (unmoved_step step orders)
  · cases step with
    | set name value _ => exact .change (exchange.document.changes_set name value)
    | remove name _ => exact .change (exchange.document.changes_remove name)
    | save delay _ => exact .save (exchange.unmoved_save delay)
    | begin free pending _ => exact .enter free pending _ _
    | read begun => exact .look begun
    | finish trouble begun => exact .finish trouble begun
    | flush | drop | take | expire | stop | answer | pass => exact absurd trivial orders

/-- A state of the bag that is no older than the one of a number was written last. -/
def HasFiled (exchange : Exchange) (number : Nat) : Prop :=
  ∃ filed ∈ exchange.filed, number ≤ filed

def IsWriting (exchange : Exchange) (number : Nat) : Prop :=
  ∃ write ∈ exchange.lock, ∀ snapshot ∈ write.snapshot, number ≤ snapshot.1

def FileHolds (exchange : Exchange) (number : Nat) : Prop :=
  ∃ bag, exchange.states[number]? = some bag ∧
    exchange.disk.contents? exchange.document.path = .ok (some (Document.contents bag))

structure Tracked (exchange : Exchange) : Prop where
  missed : exchange.isMissed = true →
    exchange.document.isPending = false ∧ exchange.lock = none ∧ exchange.hasFailed = true
  saved_le : ∀ saved ∈ exchange.saved, saved ≤ exchange.number
  filed_le : ∀ filed ∈ exchange.filed, filed ≤ exchange.number
  snapshot : ∀ write ∈ exchange.lock, ∀ snapshot ∈ write.snapshot,
    exchange.states[snapshot.1]? = some snapshot.2 ∧ ∀ filed ∈ exchange.filed, filed ≤ snapshot.1
  file : ∀ filed ∈ exchange.filed, exchange.FileHolds filed
  covered : ∀ saved ∈ exchange.saved, exchange.HasFiled saved ∨
    exchange.document.isPending = true ∨ exchange.isMissed = true ∨ exchange.IsWriting saved

theorem tracked_start (document : Document) (disk : Disk) : (start document disk).Tracked where
  missed := nofun
  saved_le := nofun
  filed_le := nofun
  snapshot := nofun
  file := nofun
  covered := nofun

theorem Tracked.of_unmoved (tracked : exchange.Tracked) (unmoved : exchange.Unmoved next) :
    next.Tracked := by
  obtain ⟨bag, isPending, path, writes, disk, lock, past, saved, filed, isMissed, hasFailed⟩ := unmoved
  obtain ⟨missed, saved_le, filed_le, snapshot, file, covered⟩ := tracked
  constructor <;>
    simp only [number, states, HasFiled, IsWriting, FileHolds, bag, isPending, path, disk, lock, past,
      saved, filed, isMissed, hasFailed]
  · exact missed
  · exact saved_le
  · exact filed_le
  · exact snapshot
  · exact file
  · exact covered

theorem states_change {outcome : Document × Bool} (changes : exchange.document.Changes outcome)
    {number : Nat} {bag : Bag} (there : exchange.states[number]? = some bag) :
    (exchange.change outcome).states[number]? = some bag := by
  cases flag : outcome.2 with
  | false => simpa only [states, change, flag, Bool.false_eq_true, if_false, changes.bag flag] using there
  | true =>
      obtain ⟨inside, -⟩ := List.getElem?_eq_some_iff.mp there
      have longer : (exchange.change outcome).states = exchange.states ++ [outcome.1.bag] := by
        simp only [states, change, flag, if_true]
      rw [longer, List.getElem?_append_left inside, there]

theorem number_le_change (exchange : Exchange) (outcome : Document × Bool) :
    exchange.number ≤ (exchange.change outcome).number := by
  simp only [number, change]
  split <;> simp

theorem Tracked.change (tracked : exchange.Tracked) {outcome : Document × Bool}
    (changes : exchange.document.Changes outcome) : (exchange.change outcome).Tracked where
  missed := fun missed =>
    let before := tracked.missed missed
    ⟨changes.isPending.trans before.1, before.2⟩
  saved_le := fun saved there =>
    Nat.le_trans (tracked.saved_le saved there) (number_le_change exchange outcome)
  filed_le := fun filed there =>
    Nat.le_trans (tracked.filed_le filed there) (number_le_change exchange outcome)
  snapshot := by
    intro write held snapshot taken
    obtain ⟨state, filed⟩ := tracked.snapshot write held snapshot taken
    exact ⟨states_change changes state, filed⟩
  file := by
    intro filed there
    obtain ⟨bag, state, contents⟩ := tracked.file filed there
    refine ⟨bag, states_change changes state, ?_⟩
    simpa only [Exchange.change, changes.path] using contents
  covered := by
    intro saved there
    have before := tracked.covered saved there
    simpa only [HasFiled, IsWriting, Exchange.change, changes.isPending] using before

theorem Tracked.mark (tracked : exchange.Tracked) : exchange.mark.Tracked where
  missed := nofun
  saved_le := by
    rintro saved ⟨⟩
    exact Nat.le_refl _
  filed_le := tracked.filed_le
  snapshot := tracked.snapshot
  file := tracked.file
  covered := fun _ _ => .inr (.inl rfl)

theorem Tracked.enter (tracked : exchange.Tracked) (pending : exchange.document.isPending = true)
    (party : Party) (others : List Party) : (exchange.enter party others).Tracked where
  missed := by
    intro missed
    have clean := (tracked.missed missed).1
    rw [pending] at clean
    cases clean
  saved_le := tracked.saved_le
  filed_le := tracked.filed_le
  snapshot := by
    rintro write ⟨⟩
    exact nofun
  file := tracked.file
  covered := fun _ _ => .inr (.inr (.inr ⟨_, rfl, nofun⟩))

theorem not_missed_of_lock (tracked : exchange.Tracked) {write : Write}
    (held : exchange.lock = some write) : exchange.isMissed = false := by
  cases missed : exchange.isMissed with
  | false => rfl
  | true =>
      have free := (tracked.missed missed).2.1
      rw [held] at free
      cases free

theorem states_number (exchange : Exchange) :
    exchange.states[exchange.number]? = some exchange.document.bag := by
  simp [states, number]

theorem le_number_of_states {number : Nat} {bag : Bag}
    (there : exchange.states[number]? = some bag) : number ≤ exchange.number := by
  obtain ⟨inside, -⟩ := List.getElem?_eq_some_iff.mp there
  simpa [states, Exchange.number, Nat.lt_succ_iff] using inside

theorem Tracked.look (tracked : exchange.Tracked) {party : Party}
    (begun : exchange.lock = some ⟨party, none⟩) : (exchange.look party).Tracked where
  missed := by
    intro missed
    have before : exchange.isMissed = true := missed
    rw [not_missed_of_lock tracked begun] at before
    cases before
  saved_le := tracked.saved_le
  filed_le := tracked.filed_le
  snapshot := by
    rintro write ⟨⟩ snapshot ⟨⟩
    exact ⟨exchange.states_number, tracked.filed_le⟩
  file := tracked.file
  covered := by
    intro saved there
    refine .inr (.inr (.inr ⟨_, rfl, ?_⟩))
    rintro snapshot ⟨⟩
    exact tracked.saved_le saved there

theorem Tracked.settle (tracked : exchange.Tracked) {party : Party} {number : Nat} {bag : Bag}
    (begun : exchange.lock = some ⟨party, some (number, bag)⟩) (trouble : Disk.Trouble) :
    (exchange.settle number (exchange.disk.replaceCourse trouble exchange.document.path
      (Document.contents bag))).Tracked := by
  obtain ⟨state, filedBefore⟩ := tracked.snapshot _ begun _ rfl
  have notMissed := not_missed_of_lock tracked begun
  generalize happened : exchange.disk.replaceCourse trouble exchange.document.path
    (Document.contents bag) = course
  unfold Exchange.settle
  cases result : course.result with
  | ok done =>
      have holds : course.disk.contents? exchange.document.path =
          .ok (some (Document.contents bag)) := by
        rw [← happened] at result ⊢
        exact Disk.contents?_replaceAmid result
      exact {
        missed := by
          intro missed
          rw [notMissed] at missed
          cases missed
        saved_le := tracked.saved_le
        filed_le := by
          rintro filed ⟨⟩
          exact le_number_of_states state
        snapshot := nofun
        file := by
          rintro filed ⟨⟩
          exact ⟨bag, state, holds⟩
        covered := by
          -- A save since the beginning of the write is pending; all others it has read.
          intro saved there
          rcases tracked.covered saved there with ⟨filed, old, newer⟩ | pending | missed | writing
          · exact .inl ⟨number, rfl, Nat.le_trans newer (filedBefore filed old)⟩
          · exact .inr (.inl pending)
          · rw [notMissed] at missed
            cases missed
          · obtain ⟨write, held, newer⟩ := writing
            rw [begun] at held
            cases held
            exact .inl ⟨number, rfl, newer _ rfl⟩ }
  | error failure =>
      have kept : Disk.Extends exchange.disk course.disk := by
        rw [← happened] at result ⊢
        exact Disk.replaceAmid_extends result
      exact {
        missed := fun missed => ⟨by simpa [Document.endWrite] using missed, rfl, rfl⟩
        saved_le := tracked.saved_le
        filed_le := tracked.filed_le
        snapshot := nofun
        file := by
          intro filed there
          obtain ⟨old, oldState, contents⟩ := tracked.file filed there
          exact ⟨old, oldState, Disk.contents?_of_extends kept contents⟩
        covered := by
          intro saved there
          rcases tracked.covered saved there with written | pending | missed | writing
          · exact .inl written
          · exact .inr (.inl pending)
          · rw [notMissed] at missed
            cases missed
          · cases pending : exchange.document.isPending with
            | true => exact .inr (.inl pending)
            | false => exact .inr (.inr (.inl (by simp))) }

theorem tracked_step (tracked : exchange.Tracked) (step : Step exchange move next) :
    next.Tracked := by
  cases effect_of_step step with
  | change changes => exact tracked.change changes
  | save unmoved => exact tracked.mark.of_unmoved unmoved
  | enter _ pending party others => exact tracked.enter pending party others
  | look begun => exact tracked.look begun
  | finish trouble begun =>
      exact (tracked.settle begun trouble).of_unmoved (unmoved_release _ _ _)
  | order unmoved => exact tracked.of_unmoved unmoved

end Exchange
end Waymark
