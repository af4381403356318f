import Waymark.Proofs.Document.Shared
/-!
# Windows that write in turn

Two windows that change different names of one file both keep what they have changed, if each takes
over what the other one has written before it writes again and reads the file only when its own
changes are in it.
-/

namespace Waymark

namespace Side

/-- All that was changed was saved, or it was in the file before the reload that goes on. -/
def IsSaved (side : Side) : Prop :=
  side.watched.isWatching = true ∨ side.isUnsaved = false ∧ side.document.isPending = false

/-- All that was changed is in the file, as far as the window itself has seen to it. -/
def IsFiled (side : Side) : Prop :=
  side.watched.isWatching = true ∨ side.isSettled = true

variable {side : Side}

theorem IsFiled.isSaved (filed : side.IsFiled) : side.IsSaved :=
  filed.imp_right fun settled => ⟨((Shared.isSettled_iff side).mp settled).1,
    ((Shared.isSettled_iff side).mp settled).2.1⟩

theorem not_settled_of_pending (pending : side.document.isPending = true) :
    side.isSettled ≠ true := by
  simp [isSettled, pending]

theorem not_settled_of_lock {write : Write} (held : side.exchange.lock = some write) :
    side.isSettled ≠ true := by
  simp [isSettled, held]

theorem after_change {move : Watched.Move} {change : String × Option Json}
    (changed : move.change? = some change) (watched : Watched) (writes : Nat) :
    side.after watched writes move = { side with watched, isUnsaved := true } := by
  unfold Watched.Move.change? at changed
  split at changed
  · rfl
  · rfl
  · cases changed

end Side

namespace Shared

variable {shared next last : Shared} {window : Window} {move : Watched.Move} {watched : Watched}
  {path : Path}

def Shown (initial : Bag) (mine : Window → String → Prop) (shared : Shared) (window : Window)
    (bag : Bag) : Prop :=
  ∀ name, mine window name → bag.Shows initial shared.changes name

/-- A bag with as many writes of the other window as it has done shows its names, if nothing of the
other window is on its way to the file. -/
def Knows (initial : Bag) (mine : Window → String → Prop) (shared : Shared) (window : Window)
    (writes : Nat) (bag : Bag) : Prop :=
  writes = shared.writes window.other → (shared.side window.other).IsFiled →
    Shown initial mine shared window.other bag

structure Keeps (initial : Bag) (mine : Window → String → Prop) (shared : Shared)
    (window : Window) : Prop where
  own : Shown initial mine shared window (shared.side window).document.bag
  others : Knows initial mine shared window (shared.side window).seen (shared.side window).document.bag
  looked : ∀ party number bag,
    (shared.side window).exchange.lock = some ⟨party, some (number, bag)⟩ →
      ((shared.side window).IsSaved → Shown initial mine shared window bag) ∧
        Knows initial mine shared window (shared.side window).looked bag
  found : ∀ filed bag, (shared.side window).watched.watcher = .found filed bag →
    Shown initial mine shared window bag ∧
      Knows initial mine shared window (shared.side window).reading bag

structure Sharing (path : Path) (initial : Bag) (mine : Window → String → Prop)
    (shared : Shared) : Prop where
  keeps : ∀ window, Keeps initial mine shared window
  file : ∀ window, (shared.side window).IsFiled → ∀ file,
    Document.read shared.disk path = .ok (some file) → Shown initial mine shared window file

section
variable {initial : Bag} {mine : Window → String → Prop} {disk : Disk} {bag : Bag} {writes : Nat}

def Foreign (mine : Window → String → Prop) (window : Window) (move : Watched.Move) : Prop :=
  ∀ name value, move.change? = some (name, value) →
    ∀ other, mine window.other other → Text.lower other ≠ Text.lower name

theorem Shown.after (shown : Shown initial mine shared window.other bag)
    (foreign : Foreign mine window move) (watched : Watched) :
    Shown initial mine (shared.after window move watched) window.other bag := by
  intro name own
  change bag.Shows initial (move.change?.toList ++ shared.changes) name
  cases change : move.change? with
  | none => exact shown name own
  | some change => exact (Bag.shows_cons_of_ne (foreign _ _ change name own)).mpr (shown name own)

theorem Shown.reread (shown : Shown initial mine shared window bag) :
    Shown initial mine shared window bag.reread :=
  fun name own => (shown name own).reread

theorem Knows.after (knows : Knows initial mine shared window writes bag)
    (foreign : Foreign mine window move) (watched : Watched) :
    Knows initial mine (shared.after window move watched) window writes bag := by
  intro same filed
  rw [writes_after_other] at same
  rw [side_after_other] at filed
  exact (knows same filed).after foreign watched

/-- If the changes of a window are in the file after a step, it has written, or they were there before
and it has changed nothing. -/
def Still (shared : Shared) (window : Window) (next : Shared) : Prop :=
  (next.side window).IsFiled → shared.writes window < next.writes window ∨
    (shared.side window).IsFiled ∧ next.writes window = shared.writes window ∧
      next.changes = shared.changes

theorem Knows.after_other (knows : Knows initial mine shared window.other writes bag)
    (bounded : writes ≤ shared.writes window) (still : Still shared window next) :
    Knows initial mine next window.other writes bag := by
  intro same filed
  rw [window.other_other] at same filed
  rcases still filed with wrote | ⟨filed, sameWrites, changes⟩
  · exact absurd wrote (Nat.not_lt.mpr (same ▸ bounded))
  · rw [Knows, window.other_other] at knows
    rw [window.other_other, Shown, changes]
    exact knows (same.trans sameWrites) filed

theorem Keeps.after_other (keeps : Keeps initial mine shared window.other)
    (bounded : (shared.side window.other).Bounded (shared.writes window))
    (foreign : Foreign mine window move) (watched : Watched)
    (still : Still shared window (shared.after window move watched)) :
    Keeps initial mine (shared.after window move watched) window.other := by
  have same := side_after_other shared window move watched
  obtain ⟨reading, seen, looked⟩ := bounded
  constructor
  · rw [same]
    exact keeps.own.after foreign watched
  · rw [same]
    exact keeps.others.after_other seen still
  · rw [same]
    intro party number bag held
    obtain ⟨own, knows⟩ := keeps.looked party number bag held
    exact ⟨fun saved => (own saved).after foreign watched, knows.after_other looked still⟩
  · rw [same]
    intro filed bag found
    obtain ⟨own, knows⟩ := keeps.found filed bag found
    exact ⟨own.after foreign watched, knows.after_other reading still⟩

theorem Sharing.turn (sharing : Sharing path initial mine shared) (sound : shared.Sound path)
    (foreign : Foreign mine window move)
    (still : Still shared window (shared.after window move watched))
    (keeps : Keeps initial mine (shared.after window move watched) window)
    (file : ∀ any, ((shared.after window move watched).side any).IsFiled → ∀ file,
      Document.read watched.exchange.disk path = .ok (some file) →
        Shown initial mine (shared.after window move watched) any file) :
    Sharing path initial mine (shared.after window move watched) where
  keeps := by
    have bounded := sound.bounded window.other
    rw [window.other_other] at bounded
    exact window.forall_of keeps ((sharing.keeps window.other).after_other bounded foreign watched still)
  file := file

theorem Sharing.quiet (sharing : Sharing path initial mine shared) (sound : shared.Sound path)
    (foreign : Foreign mine window move) (disk : watched.exchange.disk = shared.disk)
    (writes : watched.exchange.document.writes = shared.writes window)
    (filed : ((shared.after window move watched).side window).IsFiled →
      (shared.side window).IsFiled ∧ move.change? = none)
    (keeps : Keeps initial mine (shared.after window move watched) window) :
    Sharing path initial mine (shared.after window move watched) := by
  have changes : ((shared.after window move watched).side window).IsFiled →
      (shared.after window move watched).changes = shared.changes := fun still => by
    change move.change?.toList ++ shared.changes = shared.changes
    rw [(filed still).2]
    rfl
  refine sharing.turn sound foreign (fun still => .inr ⟨(filed still).1, ?_, changes still⟩) keeps ?_
  · rw [writes_after, writes]
  · rw [disk]
    refine window.forall_of (fun still file read => ?_) (fun still file read => ?_)
    · rw [Shown, changes still]
      exact sharing.file window (filed still).1 file read
    · rw [side_after_other] at still
      exact (sharing.file window.other still file read).after foreign watched

theorem Sharing.change (sharing : Sharing path initial mine shared) (sound : shared.Sound path)
    {name : String} {value : Option Json} {outcome : Document × Bool}
    (changed : move.change? = some (name, value)) (foreign : Foreign mine window move)
    (nonempty : ∀ name, mine window name ∨ mine window.other name → name ≠ "")
    (calm : (shared.side window).watched.isWatching = false)
    (exchange : watched.exchange = (shared.watched window).exchange.change outcome)
    (watcher : watched.watcher = (shared.side window).watched.watcher)
    (changes : (shared.side window).document.Changes outcome)
    (shows : ∀ other, other ≠ "" →
      (shared.side window).document.bag.Shows initial shared.changes other →
        outcome.1.bag.Shows initial ((name, value) :: shared.changes) other) :
    Sharing path initial mine (shared.after window move watched) := by
  have list : (shared.after window move watched).changes = (name, value) :: shared.changes := by
    change move.change?.toList ++ shared.changes = _
    rw [changed]
    rfl
  have side := (side_after shared window move watched).trans (Side.after_change changed watched _)
  have idle := watcher.trans (Watched.watcher_eq_idle calm)
  have notSaved : ¬((shared.after window move watched).side window).IsSaved := by
    rw [side]
    rintro (watching | ⟨saved, -⟩)
    · rw [Watched.isWatching, idle] at watching
      cases watching
    · cases saved
  obtain ⟨own, others, looked, -⟩ := sharing.keeps window
  refine sharing.quiet sound foreign ?_ ?_ (fun filed => absurd filed.isSaved notSaved) ?_
  · rw [exchange]
    rfl
  · rw [exchange]
    exact changes.writes
  constructor
  · rw [Shown, list, side, Side.document, exchange]
    exact fun other here => shows other (nonempty other (.inl here)) (own other here)
  · intro same filed other there
    rw [side, writes_after_other] at same
    rw [side_after_other] at filed
    rw [list, side, Side.document, exchange]
    exact shows other (nonempty other (.inr there)) (others same filed other there)
  · intro party number bag held
    refine ⟨fun saved => absurd saved notSaved, ?_⟩
    rw [side, Side.exchange, exchange] at held
    rw [side]
    exact (looked party number bag held).2.after foreign watched
  · rw [side, idle]
    rintro filed bag ⟨⟩

theorem foreign_of_unchanged (unchanged : move.change? = none) : Foreign mine window move :=
  fun _ _ changed => nomatch unchanged.symm.trans changed

theorem Shown.of_changes (shown : Shown initial mine shared window bag)
    (changes : next.changes = shared.changes) : Shown initial mine next window bag := by
  rw [Shown, changes]
  exact shown

theorem changes_after (unchanged : move.change? = none) (watched : Watched) :
    (shared.after window move watched).changes = shared.changes := by
  change move.change?.toList ++ shared.changes = _
  rw [unchanged]
  rfl

/-- A move that leaves the bag and the file as they are. -/
theorem Sharing.work (sharing : Sharing path initial mine shared) (sound : shared.Sound path)
    (unchanged : move.change? = none) {side : Side}
    (after : (shared.side window).after watched (shared.writes window.other) move = side)
    (disk : watched.exchange.disk = shared.disk)
    (writes : watched.exchange.document.writes = shared.writes window)
    (bag : watched.exchange.document.bag = (shared.side window).document.bag)
    (seen : side.seen = (shared.side window).seen)
    (filed : side.IsFiled → (shared.side window).IsFiled)
    (looked : ∀ party number bag, watched.exchange.lock = some ⟨party, some (number, bag)⟩ →
      (side.IsSaved → Shown initial mine shared window bag) ∧
        Knows initial mine shared window side.looked bag)
    (found : ∀ filed bag, watched.watcher = .found filed bag →
      Shown initial mine shared window bag ∧ Knows initial mine shared window side.reading bag) :
    Sharing path initial mine (shared.after window move watched) := by
  have foreign : Foreign mine window move := foreign_of_unchanged unchanged
  have same := (side_after shared window move watched).trans after
  have held : side.watched = watched := by rw [← after, watched_after]
  have changes := @changes_after shared window move unchanged watched
  obtain ⟨own, others, -, -⟩ := sharing.keeps window
  refine sharing.quiet sound foreign disk writes (fun still => ⟨filed (same ▸ still), unchanged⟩) ?_
  constructor
  · rw [same, Side.document, held, bag]
    exact own.of_changes changes
  · rw [same, Side.document, held, bag, seen]
    exact others.after foreign watched
  · rw [same, Side.exchange, held]
    intro party number bag there
    obtain ⟨own, knows⟩ := looked party number bag there
    exact ⟨fun saved => (own saved).of_changes changes, knows.after foreign watched⟩
  · rw [same, held]
    intro filed bag there
    obtain ⟨own, knows⟩ := found filed bag there
    exact ⟨own.of_changes changes, knows.after foreign watched⟩

theorem Sharing.order (sharing : Sharing path initial mine shared) (sound : shared.Sound path)
    {use : Waymark.Move} {later : Exchange} (orders : Exchange.Orders use)
    (unmoved : (shared.watched window).exchange.Unmoved later) :
    Sharing path initial mine
      (shared.after window (.use use) { shared.watched window with exchange := later }) := by
  have unchanged : (Watched.Move.use use).change? = none := by
    cases use <;> first | rfl | exact orders.elim
  have after : (shared.side window).after { shared.watched window with exchange := later }
      (shared.writes window.other) (.use use) =
        { shared.side window with
          watched := { shared.watched window with exchange := later } } := by
    cases use <;> first | rfl | exact orders.elim
  have isPending : later.document.isPending = (shared.side window).document.isPending :=
    unmoved.isPending
  have lock : later.lock = (shared.side window).exchange.lock := unmoved.lock
  obtain ⟨-, -, looked, found⟩ := sharing.keeps window
  refine sharing.work sound unchanged after unmoved.disk unmoved.writes unmoved.bag rfl ?_ ?_ found
  · refine Or.imp_right fun settled => ?_
    rw [isSettled_iff] at settled ⊢
    exact ⟨settled.1, isPending ▸ settled.2.1, lock ▸ settled.2.2⟩
  · rw [lock]
    intro party number bag held
    obtain ⟨own, knows⟩ := looked party number bag held
    exact ⟨fun saved => own (saved.imp_right fun saved => ⟨saved.1, isPending ▸ saved.2⟩), knows⟩

section
variable {later : Exchange}

theorem Sharing.save (sharing : Sharing path initial mine shared) (sound : shared.Sound path)
    (delay : Nat) (unmoved : (shared.watched window).exchange.mark.Unmoved later) :
    Sharing path initial mine (shared.after window (.use (.save delay))
      { shared.watched window with exchange := later }) := by
  have pending : later.document.isPending = true := unmoved.isPending
  obtain ⟨-, -, looked, found⟩ := sharing.keeps window
  refine sharing.work sound rfl rfl unmoved.disk unmoved.writes unmoved.bag rfl
    (fun filed => .inl (filed.resolve_right (Side.not_settled_of_pending pending))) ?_ found
  rw [unmoved.lock]
  intro party number bag held
  obtain ⟨own, knows⟩ := looked party number bag held
  refine ⟨fun saved => own (.inl (saved.resolve_right fun saved => ?_)), knows⟩
  cases saved.2.symm.trans pending

theorem Sharing.begin (sharing : Sharing path initial mine shared) (sound : shared.Sound path)
    (party : Party) (others : List Party) :
    Sharing path initial mine (shared.after window (.use (.begin party))
      { shared.watched window with
        exchange := (shared.watched window).exchange.enter party others }) := by
  refine sharing.work sound rfl rfl rfl rfl rfl rfl
    (fun filed => .inl (filed.resolve_right (Side.not_settled_of_lock rfl))) ?_
    (sharing.keeps window).found
  rintro _ _ _ ⟨⟩

theorem Sharing.look (sharing : Sharing path initial mine shared) (sound : shared.Sound path)
    (party : Party) :
    Sharing path initial mine (shared.after window (.use .read)
      { shared.watched window with exchange := (shared.watched window).exchange.look party }) := by
  obtain ⟨own, others, -, found⟩ := sharing.keeps window
  refine sharing.work sound rfl rfl rfl rfl rfl rfl
    (fun filed => .inl (filed.resolve_right (Side.not_settled_of_lock rfl))) ?_ found
  rintro _ _ _ ⟨⟩
  exact ⟨fun _ => own, others⟩

end

theorem Sharing.finish (sharing : Sharing path initial mine shared) (sound : shared.Sound path)
    {party : Party} {number : Nat} {bag : Bag} (trouble : Disk.Trouble)
    (held : (shared.side window).exchange.lock = some ⟨party, some (number, bag)⟩)
    (current : (shared.side window).looked = shared.writes window.other)
    (unfailed : ((shared.watched window).exchange.finish party number bag trouble).hasFailed = false) :
    Sharing path initial mine (shared.after window (.use (.finish trouble))
      { shared.watched window with
        exchange := (shared.watched window).exchange.finish party number bag trouble }) := by
  have unchanged : (Watched.Move.use (.finish trouble)).change? = none := rfl
  have foreign : Foreign mine window _ := foreign_of_unchanged unchanged
  obtain ⟨free, sameBag, isPending⟩ :=
    (shared.watched window).exchange.finish_kept party number bag trouble
  obtain ⟨writes, contents⟩ := Exchange.finish_unfailed unfailed
  rw [(sound.inUse window).samePath] at contents
  have formed : bag.Formed := (sound.sides window).formed bag
    (List.mem_of_getElem? ((sound.sides window).snapshot party number bag held))
  have keeps := sharing.keeps window
  obtain ⟨whole, knows⟩ := keeps.looked party number bag held
  generalize (shared.watched window).exchange.finish party number bag trouble = later at *
  generalize within : { shared.watched window with exchange := later } = watched
  have exchange : watched.exchange = later := within ▸ rfl
  have watcher : watched.watcher = (shared.side window).watched.watcher := within ▸ rfl
  have changes := @changes_after shared window _ unchanged watched
  have side := side_after shared window (.use (.finish trouble)) watched
  simp only [Side.after] at side
  refine sharing.turn sound foreign (fun _ => .inl ?_) ?_ ?_
  · rw [writes_after, exchange, writes]
    exact Nat.lt_succ_self _
  · constructor
    · rw [side, Side.document, exchange, sameBag]
      exact keeps.own.of_changes changes
    · rw [side, Side.document, exchange, sameBag]
      exact keeps.others.after foreign watched
    · rw [side, Side.exchange, exchange, free]
      rintro _ _ _ ⟨⟩
    · rw [side, watcher]
      intro filed bag found
      obtain ⟨own, knows⟩ := keeps.found filed bag found
      exact ⟨own.of_changes changes, knows.after foreign watched⟩
  -- The file has what the write has read: all of its window's changes if none came after that, and
  -- those of the other window as they were taken over.
  · rw [exchange]
    refine window.forall_of (fun filed file read => ?_) (fun filed file read => ?_)
    · rw [Document.eq_reread_of_read formed contents read]
      have saved := filed.isSaved
      rw [side, Side.IsSaved, Side.document, Watched.isWatching, watcher, exchange, isPending] at saved
      exact ((whole saved).of_changes changes).reread
    · rw [Document.eq_reread_of_read formed contents read]
      rw [side_after_other] at filed
      exact ((knows current filed).after foreign watched).reread

theorem Sharing.check (sharing : Sharing path initial mine shared) (sound : shared.Sound path)
    (calm : (shared.side window).hastens .check = false) :
    Sharing path initial mine (shared.after window .check (shared.watched window).check) := by
  obtain ⟨-, -, looked, found⟩ := sharing.keeps window
  unfold Watched.check
  split
  · exact sharing.work sound rfl rfl rfl rfl rfl rfl id looked found
  · rename_i clean
    have clean : (shared.side window).document.isPending = false := Bool.eq_false_iff.mpr clean
    have settled : (shared.side window).isSettled = true := by
      simpa [Side.hastens, clean] using calm
    refine sharing.work sound rfl rfl rfl rfl rfl rfl (fun _ => .inr settled) ?_ ?_
    · exact fun _ _ _ held => absurd settled (Side.not_settled_of_lock held)
    · rintro _ _ ⟨⟩

theorem Sharing.read (sharing : Sharing path initial mine shared) (sound : shared.Sound path)
    (checked : (shared.side window).watched.watcher = .checked) :
    Sharing path initial mine (shared.after window .read (shared.watched window).read) := by
  have watching : (shared.side window).watched.isWatching = true := by
    rw [Watched.isWatching, checked]
  obtain ⟨-, -, looked, -⟩ := sharing.keeps window
  refine sharing.work sound rfl rfl rfl rfl rfl rfl (fun _ => .inl watching) ?_ ?_
  · intro party number bag held
    obtain ⟨own, knows⟩ := looked party number bag held
    exact ⟨fun _ => own (.inl watching), knows⟩
  · intro filed bag there
    rcases (shared.watched window).watcher_read_cases with idle | ⟨file, found, taken⟩
    · cases idle.symm.trans there
    · cases taken.symm.trans there
      rw [(sound.inUse window).samePath] at found
      exact ⟨sharing.file window (.inl watching) bag found,
        fun _ other => sharing.file window.other other bag found⟩

theorem Sharing.takeOver (sharing : Sharing path initial mine shared) (sound : shared.Sound path)
    {filed : Option Nat} {bag : Bag}
    (found : (shared.side window).watched.watcher = .found filed bag) :
    Sharing path initial mine
      (shared.after window .takeOver ((shared.watched window).takeOver filed bag)) := by
  have unchanged : Watched.Move.takeOver.change? = none := rfl
  have foreign : Foreign mine window .takeOver := foreign_of_unchanged unchanged
  have watching : (shared.side window).watched.isWatching = true := by
    rw [Watched.isWatching, found]
  have keeps := sharing.keeps window
  obtain ⟨own, others⟩ := keeps.found filed bag found
  refine sharing.quiet sound foreign rfl rfl (fun _ => ⟨.inl watching, unchanged⟩) ?_
  constructor <;> rw [side_after]
  · exact own.of_changes (changes_after unchanged _)
  · exact others.after foreign _
  · intro party number bag held
    obtain ⟨own, knows⟩ := keeps.looked party number bag held
    exact ⟨fun _ => (own (.inl watching)).of_changes (changes_after unchanged _),
      knows.after foreign _⟩
  · rintro _ _ ⟨⟩

theorem Sharing.step (sharing : Sharing path initial mine shared) (sound : shared.Sound path)
    (nonempty : ∀ name, mine window name ∨ mine window.other name → name ≠ "")
    (foreign : Foreign mine window move)
    (step : Watched.Step (shared.watched window) move watched)
    (fair : (shared.after window move watched).Fair) :
    Sharing path initial mine (shared.after window move watched) := by
  obtain ⟨unfailed, notHasty, notBehind⟩ := fair
  have calm := (Bool.or_eq_false_iff.mp notHasty).2
  have current := (Bool.or_eq_false_iff.mp notBehind).2
  have written := unfailed window
  rw [Side.exchange, side_after, watched_after] at written
  cases step with
  | set name value =>
      obtain ⟨exchange, watcher⟩ := Watched.exchange_change (shared.watched window) name (some value) _
      refine sharing.change sound rfl foreign nonempty calm exchange watcher
        (Document.changes_set _ name value) fun other named shows => ?_
      rw [(Document.set_bag _ _ _).1]
      exact Bag.shows_set named fun _ => shows
  | remove name =>
      obtain ⟨exchange, watcher⟩ := Watched.exchange_change (shared.watched window) name none _
      refine sharing.change sound rfl foreign nonempty calm exchange watcher
        (Document.changes_remove _ name) fun other _ shows => ?_
      rw [Document.remove_bag]
      exact Bag.shows_remove fun _ => shows
  | @work use later step notSet notRemove =>
      by_cases orders : Exchange.Orders use
      · exact sharing.order sound orders (Exchange.unmoved_step step orders)
      · cases step with
        | set name value => exact absurd rfl (notSet name value)
        | remove name => exact absurd rfl (notRemove name)
        | save delay => exact sharing.save sound delay (Exchange.unmoved_save _ delay)
        | begin => exact sharing.begin sound _ _
        | read => exact sharing.look sound _
        | finish trouble begun =>
            exact sharing.finish sound trouble begun (by simpa [Side.isOvertaken] using current) written
        | flush | drop | take | expire | stop | answer | pass => exact absurd trivial orders
  | check => exact sharing.check sound calm
  | read checked => exact sharing.read sound checked
  | takeOver found => exact sharing.takeOver sound found

end

def Mine (moves : List Move) (window : Window) (name : String) : Prop :=
  name ≠ "" ∧ ∀ other, Touches moves window.other other → Text.lower name ≠ Text.lower other

theorem fair_of_turn (step : Watched.Step (shared.watched window) move watched)
    (fair : (shared.after window move watched).Fair) : shared.Fair :=
  ⟨unfailed_of_turn step fair.unfailed, (Bool.or_eq_false_iff.mp fair.calm).1,
    (Bool.or_eq_false_iff.mp fair.inTurn).1⟩

theorem fair_of_run {moves : List Move} (run : Run shared moves last) (fair : last.Fair) :
    shared.Fair := by
  induction run with
  | nil => exact fair
  | cons step _ ih =>
      cases step with
      | turn step => exact fair_of_turn step (ih fair)

theorem Sharing.run {initial : Bag} {moves all : List Move} (inside : ∀ move ∈ moves, move ∈ all)
    (sharing : Sharing path initial (Mine all) shared) (sound : shared.Sound path)
    (run : Run shared moves last) (fair : last.Fair) : Sharing path initial (Mine all) last := by
  -- The names of a window are those that the other one changes nowhere in the whole run.
  induction run with
  | nil => exact sharing
  | cons step rest ih =>
      obtain ⟨here, later⟩ := List.forall_mem_cons.mp inside
      cases step with
      | @turn window move next turn =>
          refine ih later (sharing.step sound ?_ ?_ turn (fair_of_run rest fair)) (sound.turn turn) fair
          · rintro name (own | own) <;> exact own.1
          · intro name value changed other own
            refine own.2 name ?_
            rw [window.other_other]
            exact ⟨move, value, here, changed⟩

def flag (bag : Bag) (name : String) : Bag :=
  (bag.set name (.boolean true)).1

end Shared
end Waymark
