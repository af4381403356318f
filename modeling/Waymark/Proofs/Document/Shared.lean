import Mathlib.Logic.Function.Basic
import Waymark.Proofs.Document.Watched
/-!
# Documents shared by two windows

Two windows keep documents of one file, and each reads it again now and then. Each write replaces the
whole file with what one window has, so that a change of the other one stays only if the writer has
taken it over before. The steps of writes and reloads of both windows come in any order.
-/

namespace Waymark

inductive Window where
  | first
  | second
  deriving DecidableEq

namespace Window

def other : Window → Window
  | .first => .second
  | .second => .first

variable (window : Window)

@[simp] theorem other_other : window.other.other = window := by
  cases window <;> rfl

theorem other_ne : window.other ≠ window := by
  cases window <;> decide

theorem forall_of {condition : Window → Prop} (here : condition window)
    (there : condition window.other) (any : Window) : condition any := by
  cases window <;> cases any <;> assumption

end Window

/-- What a window does with the file. Three times it counts the writes of the other window: those
before it last read the file, those in what it last took over from there, and those in what its last
write has read from the bag. -/
structure Side where
  watched : Watched
  /-- Whether something was changed since the last save. -/
  isUnsaved : Bool
  reading : Nat
  seen : Nat
  looked : Nat

structure Shared where
  side : Window → Side
  disk : Disk
  /-- What both have changed, the latest first. -/
  changes : List (String × Option Json)
  /-- Whether a window began a reload between a change and its save or during a write, or changed
  something while it was at a reload. -/
  isHasty : Bool
  /-- Whether a window wrote what it had before it took over the last write of the other one. -/
  isBehind : Bool

namespace Watched.Move

def change? : Watched.Move → Option (String × Option Json)
  | .use (.set name value) => some (name, some value)
  | .use (.remove name) => some (name, none)
  | _ => none

def IsReload : Watched.Move → Prop
  | .use _ => False
  | .check | .read | .takeOver => True

end Watched.Move

namespace Side

variable (side : Side)

def exchange : Exchange :=
  side.watched.exchange

def document : Document :=
  side.watched.exchange.document

def isSettled : Bool :=
  !side.isUnsaved && !side.document.isPending && side.exchange.lock.isNone

def after (watched : Watched) (writes : Nat) : Watched.Move → Side
  | .use (.set ..) | .use (.remove _) => { side with watched, isUnsaved := true }
  | .use (.save _) => { side with watched, isUnsaved := false }
  | .use .read => { side with watched, looked := side.seen }
  | .read => { side with watched, reading := writes }
  | .takeOver => { side with watched, seen := side.reading }
  | _ => { side with watched }

def hastens : Watched.Move → Bool
  | .use (.set ..) | .use (.remove _) => side.watched.isWatching
  | .check => !side.document.isPending && !side.isSettled
  | _ => false

def isOvertaken (writes : Nat) : Watched.Move → Bool
  | .use (.finish _) => side.looked ≠ writes
  | _ => false

end Side

namespace Shared

abbrev Move :=
  Window × Watched.Move

def start (path : Path) (disk : Disk) (hasWriter : Window → Bool) : Shared :=
  ⟨fun window => ⟨.start path disk (hasWriter window), false, 0, 0, 0⟩, disk, [], false, false⟩

def writes (shared : Shared) (window : Window) : Nat :=
  (shared.side window).document.writes

def watched (shared : Shared) (window : Window) : Watched :=
  let watched := (shared.side window).watched
  { watched with exchange := { watched.exchange with disk := shared.disk } }

def after (shared : Shared) (window : Window) (move : Watched.Move) (watched : Watched) : Shared where
  side := Function.update shared.side window
    ((shared.side window).after watched (shared.writes window.other) move)
  disk := watched.exchange.disk
  changes := move.change?.toList ++ shared.changes
  isHasty := shared.isHasty || (shared.side window).hastens move
  isBehind := shared.isBehind || (shared.side window).isOvertaken (shared.writes window.other) move

inductive Step : Shared → Move → Shared → Prop where
  | turn {shared : Shared} {window : Window} {move : Watched.Move} {next : Watched}
      (step : Watched.Step (shared.watched window) move next) :
      Step shared (window, move) (shared.after window move next)

inductive Run : Shared → List Move → Shared → Prop where
  | nil (shared : Shared) : Run shared [] shared
  | cons {first second last : Shared} {move : Move} {moves : List Move}
      (step : Step first move second) (rest : Run second moves last) :
      Run first (move :: moves) last

def Unfailed (shared : Shared) : Prop :=
  ∀ window, (shared.side window).exchange.hasFailed = false

/-- No write has failed, no reload was hasty, and no window wrote before it had taken over what the
other one had written. -/
structure Fair (shared : Shared) : Prop where
  unfailed : shared.Unfailed
  calm : shared.isHasty = false
  inTurn : shared.isBehind = false

def Touches (moves : List Move) (window : Window) (name : String) : Prop :=
  ∃ move value, (window, move) ∈ moves ∧ move.change? = some (name, value)

def Apart (moves : List Move) : Prop :=
  ∀ name other, Touches moves .first name → Touches moves .second other →
    Text.lower name ≠ Text.lower other

def reload (window : Window) : List Move :=
  [(window, .check), (window, .read), (window, .takeOver)]

theorem Run.append {first middle last : Shared} {moves more : List Move}
    (run : Run first moves middle) (rest : Run middle more last) :
    Run first (moves ++ more) last := by
  induction run with
  | nil => exact rest
  | cons step _ ih => exact .cons step (ih rest)

@[simp] theorem side_after (shared : Shared) (window : Window) (move : Watched.Move)
    (watched : Watched) : (shared.after window move watched).side window =
      (shared.side window).after watched (shared.writes window.other) move :=
  Function.update_self ..

@[simp] theorem side_after_other (shared : Shared) (window : Window) (move : Watched.Move)
    (watched : Watched) :
    (shared.after window move watched).side window.other = shared.side window.other :=
  Function.update_of_ne window.other_ne ..

@[simp] theorem watched_after (side : Side) (watched : Watched) (writes : Nat)
    (move : Watched.Move) : (side.after watched writes move).watched = watched := by
  unfold Side.after
  split <;> rfl

theorem writes_after (shared : Shared) (window : Window) (move : Watched.Move) (watched : Watched) :
    (shared.after window move watched).writes window = watched.exchange.document.writes := by
  rw [writes, Side.document, side_after, watched_after]

theorem writes_after_other (shared : Shared) (window : Window) (move : Watched.Move)
    (watched : Watched) :
    (shared.after window move watched).writes window.other = shared.writes window.other := by
  rw [writes, writes, side_after_other]

theorem isSettled_iff (side : Side) : side.isSettled = true ↔
    side.isUnsaved = false ∧ side.document.isPending = false ∧ side.exchange.lock = none := by
  simp [Side.isSettled, and_assoc]

end Shared

namespace Exchange

variable {exchange next : Exchange} {move : Move} {party : Party} {number : Nat} {bag : Bag}
  {trouble : Disk.Trouble}

theorem finish_kept (exchange : Exchange) (party : Party) (number : Nat) (bag : Bag)
    (trouble : Disk.Trouble) :
    let next := exchange.finish party number bag trouble
    next.lock = none ∧ next.document.bag = exchange.document.bag ∧
      next.document.isPending = exchange.document.isPending := by
  unfold finish
  dsimp only
  rw [(unmoved_release _ _ _).lock, release_document, settle_eq]
  exact ⟨rfl, (exchange.document.endWrite_eq _).2.2.2, (exchange.document.endWrite_eq _).1⟩

theorem finish_unfailed (unfailed : (exchange.finish party number bag trouble).hasFailed = false) :
    let next := exchange.finish party number bag trouble
    next.document.writes = exchange.document.writes + 1 ∧
      next.disk.contents? exchange.document.path = .ok (some (Document.contents bag)) := by
  unfold finish at unfailed ⊢
  dsimp only at unfailed ⊢
  rw [(unmoved_release _ _ _).hasFailed, settle_eq] at unfailed
  rw [release_document, release_disk, settle_eq]
  dsimp only at unfailed ⊢
  generalize happened : exchange.disk.replaceCourse trouble exchange.document.path
    (Document.contents bag) = course at unfailed ⊢
  cases result : course.result with
  | ok done =>
      refine ⟨rfl, ?_⟩
      rw [← happened] at result ⊢
      exact Disk.contents?_replaceAmid result
  | error failure =>
      rw [result] at unfailed
      cases unfailed

theorem writes_le (step : Step exchange move next) :
    exchange.document.writes ≤ next.document.writes := by
  cases effect_of_step step with
  | change changes => exact Nat.le_of_eq changes.writes.symm
  | save unmoved | order unmoved => exact Nat.le_of_eq unmoved.writes.symm
  | enter | look => exact Nat.le_refl _
  | finish =>
      unfold finish
      rw [release_document, settle_eq]
      dsimp only [Document.endWrite]
      split
      · exact Nat.le_succ _
      · exact Nat.le_refl _

end Exchange

namespace Watched

variable {watched next : Watched} {move : Watched.Move} {path : Path}

structure Sound (path : Path) (watched : Watched) : Prop where
  samePath : watched.exchange.document.path = path
  formed : ∀ bag ∈ watched.exchange.states, bag.Formed
  snapshot : ∀ party number bag, watched.exchange.lock = some ⟨party, some (number, bag)⟩ →
    watched.exchange.states[number]? = some bag
  found : ∀ filed bag, watched.watcher = .found filed bag → bag.Formed

theorem Sound.current (sound : watched.Sound path) : watched.exchange.document.bag.Formed :=
  sound.formed _ (List.mem_of_getElem? watched.exchange.states_number)

theorem exchange_change (watched : Watched) (name : String) (value : Option Json)
    (outcome : Document × Bool) :
    (watched.change name value outcome).exchange = watched.exchange.change outcome ∧
      (watched.change name value outcome).watcher = watched.watcher := by
  unfold change
  dsimp only
  split <;> exact ⟨rfl, rfl⟩

theorem Sound.change (sound : watched.Sound path) {outcome : Document × Bool}
    (changes : watched.exchange.document.Changes outcome) (formed : outcome.1.bag.Formed)
    (same : next.exchange = watched.exchange.change outcome)
    (found : ∀ filed bag, next.watcher = .found filed bag → bag.Formed) : next.Sound path where
  samePath := by
    rw [same]
    exact changes.path.trans sound.samePath
  formed := by
    rw [same]
    cases flag : outcome.2 with
    | true => exact Exchange.forall_states_change sound.formed flag formed
    | false =>
        rw [(Exchange.states_of_kept (Exchange.kept_change changes flag)).1]
        exact sound.formed
  snapshot := by
    rw [same]
    intro party number bag held
    exact Exchange.states_change changes (sound.snapshot party number bag held)
  found := found

theorem Sound.work (sound : watched.Sound path) {use : Waymark.Move} {later : Exchange}
    (step : Waymark.Step watched.exchange use later) (notSet : ∀ name value, use ≠ .set name value)
    (notRemove : ∀ name, use ≠ .remove name) : { watched with exchange := later }.Sound path := by
  have states := (Exchange.states_of_kept (Exchange.kept_step step notSet notRemove)).1
  refine ⟨(Exchange.file_step step).1.trans sound.samePath, ?_, ?_, sound.found⟩
  · change ∀ bag ∈ later.states, _
    rw [states]
    exact sound.formed
  · intro party number bag held
    change later.states[number]? = _
    rw [states]
    cases Exchange.effect_of_step step with
    | change => exact sound.snapshot party number bag held
    | save unmoved | order unmoved =>
        exact sound.snapshot party number bag (unmoved.lock.symm.trans held)
    | enter => cases held
    | look begun =>
        cases held
        exact watched.exchange.states_number
    | finish =>
        rw [(Exchange.finish_kept _ _ _ _ _).1] at held
        cases held

theorem sound_step (sound : watched.Sound path) (step : Step watched move next) :
    next.Sound path := by
  cases step with
  | set name value _ formed =>
      obtain ⟨exchange, watcher⟩ := exchange_change watched name (some value) _
      refine sound.change (Document.changes_set _ name value) ?_ exchange (watcher ▸ sound.found)
      rw [(Document.set_bag _ _ _).1]
      exact Bag.forall_value_set (fun value => value.Fits ∧ value.Canonical) sound.current name formed
  | remove name _ =>
      obtain ⟨exchange, watcher⟩ := exchange_change watched name none _
      refine sound.change (Document.changes_remove _ name) ?_ exchange (watcher ▸ sound.found)
      rw [Document.remove_bag]
      exact fun property inside => sound.current property (List.mem_of_mem_filter inside)
  | work step notSet notRemove => exact sound.work step notSet notRemove
  | check =>
      unfold check
      split
      · exact sound
      · exact { sound with found := nofun }
  | read =>
      rcases watcher_read_cases watched with idle | ⟨bag, found, taken⟩
      · exact { sound with found := fun filed bag there => nomatch idle.symm.trans there }
      · refine { sound with found := fun filed other there => ?_ }
        cases taken.symm.trans there
        exact (Document.held_of_read found).formed
  | @takeOver filed bag found =>
      exact sound.change (watched.exchange.document.changes_takeOver bag) (sound.found filed bag found)
        rfl nofun

theorem writes_le (step : Step watched move next) :
    watched.exchange.document.writes ≤ next.exchange.document.writes := by
  cases step with
  | set name value =>
      rw [(exchange_change _ _ _ _).1]
      exact Nat.le_of_eq (Document.changes_set _ name value).writes.symm
  | remove name =>
      rw [(exchange_change _ _ _ _).1]
      exact Nat.le_of_eq (Document.changes_remove _ name).writes.symm
  | work step => exact Exchange.writes_le step
  | check =>
      unfold check
      split <;> exact Nat.le_refl _
  | read | takeOver => exact Nat.le_refl _

end Watched

def Side.Bounded (side : Side) (writes : Nat) : Prop :=
  side.reading ≤ writes ∧ side.seen ≤ writes ∧ side.looked ≤ writes

theorem Side.Bounded.after {side : Side} {writes : Nat} (bounded : side.Bounded writes)
    (watched : Watched) (move : Watched.Move) : (side.after watched writes move).Bounded writes := by
  obtain ⟨reading, seen, looked⟩ := bounded
  unfold Side.after
  split
  case h_5 => exact ⟨Nat.le_refl _, seen, looked⟩
  case h_6 => exact ⟨reading, reading, looked⟩
  case h_4 => exact ⟨reading, seen, seen⟩
  all_goals exact ⟨reading, seen, looked⟩

namespace Shared

variable {shared next last : Shared} {window : Window} {move : Watched.Move} {watched : Watched}
  {path : Path}

structure Sound (path : Path) (shared : Shared) : Prop where
  sides : ∀ window, (shared.side window).watched.Sound path
  bounded : ∀ window, (shared.side window).Bounded (shared.writes window.other)

theorem Sound.inUse (sound : shared.Sound path) (window : Window) :
    (shared.watched window).Sound path :=
  have here := sound.sides window
  ⟨here.samePath, here.formed, here.snapshot, here.found⟩

theorem Sound.turn (sound : shared.Sound path)
    (step : Watched.Step (shared.watched window) move watched) :
    (shared.after window move watched).Sound path where
  sides := by
    refine window.forall_of ?_ ?_
    · rw [side_after, watched_after]
      exact Watched.sound_step (sound.inUse window) step
    · rw [side_after_other]
      exact sound.sides window.other
  bounded := by
    refine window.forall_of ?_ ?_
    · rw [side_after, writes_after_other]
      exact (sound.bounded window).after watched move
    · have grows : shared.writes window ≤ (shared.after window move watched).writes window := by
        rw [writes_after]
        exact @Watched.writes_le (shared.watched window) _ _ step
      obtain ⟨reading, seen, looked⟩ := sound.bounded window.other
      rw [window.other_other] at reading seen looked ⊢
      rw [side_after_other]
      exact ⟨reading.trans grows, seen.trans grows, looked.trans grows⟩

theorem unfailed_of_turn (step : Watched.Step (shared.watched window) move watched)
    (unfailed : (shared.after window move watched).Unfailed) : shared.Unfailed := by
  refine window.forall_of ?_ ?_
  · refine Bool.eq_false_iff.mpr fun failed => ?_
    have here := unfailed window
    rw [Side.exchange, side_after, watched_after] at here
    rw [Watched.hasFailed_step step failed] at here
    cases here
  · have there := unfailed window.other
    rwa [side_after_other] at there

theorem Sound.run {moves : List Move} (sound : shared.Sound path) (run : Run shared moves last) :
    last.Sound path := by
  induction run with
  | nil => exact sound
  | cons step _ ih =>
      cases step with
      | turn step => exact ih (sound.turn step)

structure Rereads (path : Path) (file : Bag) (shared : Shared) : Prop where
  samePath : ∀ window, (shared.side window).document.path = path
  read : Document.read shared.disk path = .ok (some file)
  found : ∀ window filed bag, (shared.side window).watched.watcher = .found filed bag → bag = file

section
variable {file : Bag}

theorem Rereads.turn (rereads : Rereads path file shared) (reloads : move.IsReload)
    (step : Watched.Step (shared.watched window) move watched) :
    Rereads path file (shared.after window move watched) ∧ watched.exchange.disk = shared.disk ∧
      (move = .takeOver ∨ (shared.side window).document.bag = file →
        watched.exchange.document.bag = file) := by
  have samePath := rereads.samePath window
  suffices here : watched.exchange.document.path = path ∧ watched.exchange.disk = shared.disk ∧
      (∀ filed bag, watched.watcher = .found filed bag → bag = file) ∧
      (move = .takeOver ∨ (shared.side window).document.bag = file →
        watched.exchange.document.bag = file) by
    obtain ⟨path, disk, found, bag⟩ := here
    refine ⟨⟨?_, ?_, ?_⟩, disk, bag⟩
    · refine window.forall_of ?_ ?_
      · rwa [Side.document, side_after, watched_after]
      · rw [side_after_other]
        exact rereads.samePath window.other
    · change Document.read watched.exchange.disk _ = _
      rw [disk]
      exact rereads.read
    · refine window.forall_of ?_ ?_
      · rwa [side_after, watched_after]
      · rw [side_after_other]
        exact rereads.found window.other
  have found := rereads.found window
  cases step with
  | set | remove | work => exact reloads.elim
  | check =>
      unfold Watched.check
      split
      · exact ⟨samePath, rfl, found, fun same => same.resolve_left nofun⟩
      · exact ⟨samePath, rfl, nofun, fun same => same.resolve_left nofun⟩
  | read =>
      refine ⟨samePath, rfl, fun filed bag there => ?_, fun same => same.resolve_left nofun⟩
      rcases (shared.watched window).watcher_read_cases with idle | ⟨other, read, taken⟩
      · exact nomatch idle.symm.trans there
      · cases taken.symm.trans there
        have same : Document.read shared.disk path = .ok (some bag) := samePath ▸ read
        cases rereads.read.symm.trans same
        rfl
  | @takeOver filed bag there => exact ⟨samePath, rfl, nofun, fun _ => found filed bag there⟩

theorem Rereads.run {moves : List Move} (rereads : Rereads path file shared)
    (run : Run shared moves last) (reloads : ∀ move ∈ moves, move.2.IsReload) :
    last.disk = shared.disk ∧ ∀ window,
      (window, .takeOver) ∈ moves ∨ (shared.side window).document.bag = file →
        (last.side window).document.bag = file := by
  induction run with
  | nil => exact ⟨rfl, fun window same => same.resolve_left List.not_mem_nil⟩
  | cons step rest ih =>
      obtain ⟨here, later⟩ := List.forall_mem_cons.mp reloads
      cases step with
      | @turn window move next turn =>
          obtain ⟨rereads, disk, bag⟩ := rereads.turn here turn
          obtain ⟨same, bags⟩ := ih rereads later
          refine ⟨same.trans disk, window.forall_of (fun held => bags window ?_)
            fun held => bags window.other ?_⟩
          · rcases held with taken | held
            · rcases List.mem_cons.mp taken with now | taken
              · right
                rw [Side.document, side_after, watched_after]
                exact bag (.inl (congrArg Prod.snd now).symm)
              · exact .inl taken
            · right
              rw [Side.document, side_after, watched_after]
              exact bag (.inr held)
          · rw [side_after_other]
            refine held.imp_left fun taken => ?_
            exact (List.mem_cons.mp taken).resolve_left fun now =>
              window.other_ne (congrArg Prod.fst now)

end

end Shared
end Waymark
