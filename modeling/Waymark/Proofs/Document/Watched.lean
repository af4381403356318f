import Waymark.Proofs.Bag.Latest
import Waymark.Proofs.Document.Accepted
import Waymark.Proofs.Document.Announced
import Waymark.Proofs.Document.Durable
/-!
# Documents that are watched

While the owner of a document uses it, a watcher reads its file again at any time. It looks whether
a save is pending, reads the file and takes over what it has read, and between these steps the owner
and the writer go on. What the owner has changed since the state that was read is then taken back.
-/

namespace Waymark

theorem Document.remove_bag (document : Document) (name : String) :
    (document.remove name).1.bag = (document.bag.remove name).1 := by
  unfold Document.remove
  split
  · rename_i bag removed
    rw [removed]
    rfl
  · rename_i bag removed
    have absent : document.bag.contains name = false := congrArg Prod.snd removed
    have none := List.find?_eq_none.mp
      (Option.isNone_iff_eq_none.mp (Option.isSome_eq_false_iff.mp absent))
    refine Bag.ext (List.filter_eq_self.mpr fun property inside => ?_).symm
    simpa using none property inside

theorem Document.changes_takeOver (document : Document) (bag : Bag) :
    document.Changes ({ document with bag }.announce (document.bag.changes bag), true) :=
  ⟨rfl, rfl, rfl, rfl, nofun⟩

/-- How far the watcher is. What it has found comes with the number of the state that was filed. -/
inductive Watcher where
  | idle
  | checked
  | found (filed : Option Nat) (bag : Bag)

structure Watched where
  exchange : Exchange
  watcher : Watcher
  /-- What the owner has changed, the latest first. -/
  changes : List (String × Option Json)
  /-- The number of the state after the last of these changes. -/
  changed : Nat
  /-- Whether the watcher began before the last change was saved and written, or the owner made a
  change while it was at work. -/
  isHasty : Bool
  /-- Whether the watcher took over a state from before the last change. -/
  hasReverted : Bool

namespace Watched

inductive Move where
  | use (move : Waymark.Move)
  | check
  | read
  | takeOver

def start (path : Path) (disk : Disk) (hasWriter : Bool) : Watched :=
  ⟨.start (.open disk path hasWriter) disk, .idle, [], 0, false, false⟩

variable (watched : Watched)

def isWatching : Bool :=
  match watched.watcher with
  | .idle => false
  | _ => true

def change (name : String) (value : Option Json) (outcome : Document × Bool) : Watched :=
  let exchange := watched.exchange.change outcome
  if outcome.2 then
    { watched with
      exchange
      changes := (name, value) :: watched.changes
      changed := exchange.number
      isHasty := watched.isHasty || watched.isWatching }
  else { watched with exchange }

def isCalm : Bool :=
  watched.exchange.lock.isNone &&
    (watched.changed = 0 || watched.exchange.saved.any fun saved => watched.changed ≤ saved)

def check : Watched :=
  if watched.exchange.document.isPending then watched
  else { watched with watcher := .checked, isHasty := watched.isHasty || !watched.isCalm }

def read : Watched :=
  { watched with
    watcher :=
      match Document.read watched.exchange.disk watched.exchange.document.path with
      | .ok (some bag) => .found watched.exchange.filed bag
      | _ => .idle }

def takeOver (filed : Option Nat) (bag : Bag) : Watched :=
  let document := watched.exchange.document
  let (bag, names) := document.bag.replaceWith bag
  { watched with
    exchange := watched.exchange.change ({ document with bag }.announce names, true)
    watcher := .idle
    hasReverted := watched.hasReverted || filed.getD 0 < watched.changed }

inductive Step : Watched → Move → Watched → Prop where
  | set {watched : Watched} (name : String) (value : Json)
      (isOpen : watched.exchange.isOpen = true) (formed : value.Fits ∧ value.Canonical) :
      Step watched (.use (.set name value))
        (watched.change name (some value) (watched.exchange.document.set name value))
  | remove {watched : Watched} (name : String) (isOpen : watched.exchange.isOpen = true) :
      Step watched (.use (.remove name))
        (watched.change name none (watched.exchange.document.remove name))
  | work {watched : Watched} {move : Waymark.Move} {next : Exchange}
      (step : Waymark.Step watched.exchange move next) (notSet : ∀ name value, move ≠ .set name value)
      (notRemove : ∀ name, move ≠ .remove name) :
      Step watched (.use move) { watched with exchange := next }
  | check {watched : Watched} (idle : watched.watcher = .idle) : Step watched .check watched.check
  | read {watched : Watched} (checked : watched.watcher = .checked) :
      Step watched .read watched.read
  | takeOver {watched : Watched} {filed : Option Nat} {bag : Bag}
      (found : watched.watcher = .found filed bag) :
      Step watched .takeOver (watched.takeOver filed bag)

inductive Run : Watched → List Move → Watched → Prop where
  | nil (watched : Watched) : Run watched [] watched
  | cons {first second last : Watched} {move : Move} {moves : List Move}
      (step : Step first move second) (rest : Run second moves last) :
      Run first (move :: moves) last

variable {watched} {next : Watched} {move : Move} {path : Path} {disk : Disk}

theorem watcher_eq_idle (still : watched.isWatching = false) : watched.watcher = .idle := by
  unfold isWatching at still
  split at still
  · assumption
  · cases still

theorem watcher_read {bag : Bag} (found : Document.read watched.exchange.disk
    watched.exchange.document.path = .ok (some bag)) :
    watched.read.watcher = .found watched.exchange.filed bag := by
  rw [read, found]

theorem watcher_read_cases (watched : Watched) :
    watched.read.watcher = .idle ∨
      ∃ bag, Document.read watched.exchange.disk watched.exchange.document.path = .ok (some bag) ∧
        watched.read.watcher = .found watched.exchange.filed bag := by
  rw [read]
  split
  · exact .inr ⟨_, ‹_›, rfl⟩
  · exact .inl rfl

def IsFiled (watched : Watched) (first : Bag) : Option Nat → Bag → Prop
  | none, bag => bag = first
  | some number, bag => ∃ state, watched.exchange.states[number]? = some state ∧ bag = state.reread

def IsCovered (watched : Watched) : Prop :=
  match watched.watcher with
  | .idle => True
  | .checked => watched.changed = 0 ∨ watched.exchange.HasFiled watched.changed
  | .found filed _ => watched.changed ≤ filed.getD 0

structure Keeping (first : Bag) (path : Path) (disk : Disk) (watched : Watched) : Prop where
  unfailed : watched.exchange.hasFailed = false
  orderly : watched.exchange.Orderly
  samePath : watched.exchange.document.path = path
  formed : ∀ bag ∈ watched.exchange.states, bag.Formed
  untouched : watched.exchange.filed = none → watched.exchange.disk = disk
  changed_le : watched.changed ≤ watched.exchange.number
  unchanged : watched.changed = 0 → watched.changes = []
  found : ∀ filed bag, watched.watcher = .found filed bag →
    watched.IsFiled first filed bag ∧ bag.Formed
  covered : watched.isHasty = false → watched.IsCovered
  reverted : watched.isHasty = false → watched.hasReverted = false
  shows : watched.hasReverted = false → ∀ number bag, watched.changed ≤ number →
    watched.exchange.states[number]? = some bag → ∀ name, bag.Shows first watched.changes name

section
variable {first : Bag}

theorem keeping_start (path : Path) (disk : Disk) (hasWriter : Bool) :
    Keeping (Document.load disk path) path disk (start path disk hasWriter) where
  unfailed := rfl
  orderly := Exchange.orderly_start path _ hasWriter disk
  samePath := rfl
  formed := by
    intro bag inside
    rw [List.mem_singleton.mp inside]
    exact (Document.load_held disk path).formed
  untouched _ := rfl
  changed_le := Nat.le_refl 0
  unchanged _ := rfl
  found := nofun
  covered _ := trivial
  reverted _ := rfl
  shows := by
    intro _ number bag _ there name
    have here : bag = Document.load disk path :=
      List.mem_singleton.mp (List.mem_of_getElem? there)
    exact here ▸ Bag.shows_first _ name

theorem IsFiled.of_states {watched next : Watched} {filed : Option Nat} {bag : Bag}
    (isFiled : watched.IsFiled first filed bag)
    (states : ∀ (number : Nat) (state : Bag), watched.exchange.states[number]? = some state →
      next.exchange.states[number]? = some state) : next.IsFiled first filed bag := by
  cases filed with
  | none => exact isFiled
  | some number =>
      obtain ⟨state, known, same⟩ := isFiled
      exact ⟨state, states number state known, same⟩

theorem Keeping.of_kept (keeping : Keeping first path disk watched) {later : Exchange}
    (unfailed : later.hasFailed = false) (orderly : later.Orderly)
    (samePath : later.document.path = path) (untouched : later.filed = none → later.disk = disk)
    (kept : later.past = watched.exchange.past ∧
      later.document.bag = watched.exchange.document.bag)
    (grows : ∀ filed ∈ watched.exchange.filed, ∃ newer ∈ later.filed, filed ≤ newer) :
    Keeping first path disk { watched with exchange := later } := by
  obtain ⟨states, count⟩ := Exchange.states_of_kept kept
  refine ⟨unfailed, orderly, samePath, states ▸ keeping.formed, untouched, count ▸ keeping.changed_le,
    keeping.unchanged, ?_, ?_, keeping.reverted, states ▸ keeping.shows⟩
  · intro filed bag there
    obtain ⟨isFiled, formed⟩ := keeping.found filed bag there
    exact ⟨isFiled.of_states fun number state known => states ▸ known, formed⟩
  · intro notHasty
    have before := keeping.covered notHasty
    unfold IsCovered at before ⊢
    cases there : watched.watcher with
    | idle => trivial
    | found filed bag => simpa only [there] using before
    | checked =>
        simp only [there] at before ⊢
        exact before.imp_right fun filed => filed.grow grows

theorem Keeping.work (keeping : Keeping first path disk watched) {step : Waymark.Move}
    {later : Exchange} (taken : Waymark.Step watched.exchange step later)
    (notSet : ∀ name value, step ≠ .set name value) (notRemove : ∀ name, step ≠ .remove name)
    (unfailed : later.hasFailed = false) :
    Keeping first path disk { watched with exchange := later } := by
  obtain ⟨samePath, untouched⟩ := Exchange.file_step taken
  refine keeping.of_kept unfailed (Exchange.orderly_step keeping.orderly taken)
    (samePath.trans keeping.samePath) (fun none => ?_) (Exchange.kept_step taken notSet notRemove)
    (Exchange.filed_grows keeping.orderly.tracked taken)
  obtain ⟨before, sameDisk⟩ := untouched unfailed none
  exact sameDisk.trans (keeping.untouched before)

theorem Keeping.change (keeping : Keeping first path disk watched) {name : String}
    {value : Option Json} {outcome : Document × Bool}
    (changes : watched.exchange.document.Changes outcome)
    (formed : outcome.2 = true → outcome.1.bag.Formed)
    (shows : outcome.2 = true → ∀ other,
      watched.exchange.document.bag.Shows first watched.changes other →
        outcome.1.bag.Shows first ((name, value) :: watched.changes) other) :
    Keeping first path disk (watched.change name value outcome) := by
  cases flag : outcome.2 with
  | false =>
      rw [Watched.change, if_neg (Bool.eq_false_iff.mp flag)]
      exact keeping.of_kept keeping.unfailed (keeping.orderly.change changes)
        (changes.path.trans keeping.samePath) keeping.untouched (Exchange.kept_change changes flag)
        fun filed there => ⟨filed, there, Nat.le_refl _⟩
  | true =>
      obtain ⟨-, count⟩ := @Exchange.states_change_of_true watched.exchange outcome flag
      rw [Watched.change, if_pos flag]
      exact {
        unfailed := keeping.unfailed
        orderly := keeping.orderly.change changes
        samePath := changes.path.trans keeping.samePath
        formed := Exchange.forall_states_change keeping.formed flag (formed flag)
        untouched := keeping.untouched
        changed_le := Nat.le_refl _
        unchanged := fun none => by
          rw [count] at none
          cases none
        found := by
          intro filed bag there
          obtain ⟨isFiled, formed⟩ := keeping.found filed bag there
          exact ⟨isFiled.of_states fun _ _ known => Exchange.states_change changes known, formed⟩
        covered := by
          intro notHasty
          have idle := watcher_eq_idle (Bool.or_eq_false_iff.mp notHasty).2
          unfold IsCovered
          dsimp only
          rw [idle]
          trivial
        reverted := fun notHasty => keeping.reverted (Bool.or_eq_false_iff.mp notHasty).1
        shows := by
          intro notReverted number bag later there other
          rcases Exchange.state_change flag there with old | ⟨-, rfl⟩
          · have early := Exchange.le_number_of_states old
            change (watched.exchange.change outcome).number ≤ number at later
            omega
          · exact shows flag other
              (keeping.shows notReverted _ _ keeping.changed_le (Exchange.states_number _) other) }

theorem Keeping.current (keeping : Keeping first path disk watched) :
    watched.exchange.document.bag.Formed :=
  keeping.formed _ (List.mem_of_getElem? (Exchange.states_number _))

theorem Keeping.set (keeping : Keeping first path disk watched) (name : String) {value : Json}
    (formed : value.Fits ∧ value.Canonical) :
    Keeping first path disk
      (watched.change name (some value) (watched.exchange.document.set name value)) := by
  obtain ⟨bag, -⟩ := Document.set_bag watched.exchange.document name value
  refine keeping.change (Document.changes_set _ name value) (fun _ => ?_) fun changed other shows => ?_
  · rw [bag]
    exact Bag.forall_value_set (fun value => value.Fits ∧ value.Canonical) keeping.current name formed
  · rw [bag]
    exact Bag.shows_set_of_changed (Document.set_flag _ name value ▸ changed) shows

theorem Keeping.remove (keeping : Keeping first path disk watched) (name : String) :
    Keeping first path disk
      (watched.change name none (watched.exchange.document.remove name)) := by
  refine keeping.change (Document.changes_remove _ name) (fun _ => ?_) fun _ other shows => ?_
  · rw [Document.remove_bag]
    exact fun property inside => keeping.current property (List.mem_of_mem_filter inside)
  · rw [Document.remove_bag]
    exact Bag.shows_remove fun _ => shows

theorem hasFiled_of_calm (keeping : Keeping first path disk watched) (calm : watched.isCalm = true)
    (clean : watched.exchange.document.isPending = false) :
    watched.changed = 0 ∨ watched.exchange.HasFiled watched.changed := by
  obtain ⟨free, saved⟩ := (Bool.and_eq_true _ _).mp calm
  have free := Option.isNone_iff_eq_none.mp free
  rcases (Bool.or_eq_true _ _).mp saved with none | saved
  · exact .inl (of_decide_eq_true none)
  · obtain ⟨saved, there, later⟩ := (Option.any_eq_true _ _).mp saved
    obtain ⟨filed, found, newer⟩ := Exchange.hasFiled_of_saved keeping.orderly.tracked
      keeping.unfailed clean free saved there
    exact .inr ⟨filed, found, Nat.le_trans (of_decide_eq_true later) newer⟩

theorem Keeping.check (keeping : Keeping first path disk watched) :
    Keeping first path disk watched.check := by
  unfold Watched.check
  split
  · exact keeping
  · rename_i clean
    have covered : (watched.isHasty || !watched.isCalm) = false →
        watched.changed = 0 ∨ watched.exchange.HasFiled watched.changed := by
      intro notHasty
      have calm : watched.isCalm = true := by simpa using (Bool.or_eq_false_iff.mp notHasty).2
      exact hasFiled_of_calm keeping calm (Bool.eq_false_iff.mpr clean)
    exact { keeping with
      found := nofun
      covered := covered
      reverted := fun notHasty => keeping.reverted (Bool.or_eq_false_iff.mp notHasty).1 }

theorem Keeping.found_of_read (keeping : Keeping first path disk watched)
    (opened : first = Document.load disk path) {bag : Bag}
    (found : Document.read watched.exchange.disk watched.exchange.document.path = .ok (some bag)) :
    watched.IsFiled first watched.exchange.filed bag := by
  cases filed : watched.exchange.filed with
  | none =>
      rw [keeping.untouched filed, keeping.samePath] at found
      exact (opened.trans (Document.load_of_read found)).symm
  | some number =>
      obtain ⟨state, known, written⟩ := keeping.orderly.tracked.file number filed
      exact ⟨state, known, Document.eq_reread_of_read
        (keeping.formed state (List.mem_of_getElem? known)) written found⟩

theorem Keeping.read (keeping : Keeping first path disk watched)
    (opened : first = Document.load disk path) (checked : watched.watcher = .checked) :
    Keeping first path disk watched.read := by
  rcases watcher_read_cases watched with idle | ⟨bag, found, taken⟩
  · exact { keeping with
      found := fun filed bag there => nomatch idle.symm.trans there
      covered := fun _ => by
        rw [IsCovered, idle]
        trivial }
  · exact { keeping with
      found := by
        intro filed other there
        cases taken.symm.trans there
        exact ⟨keeping.found_of_read opened found, (Document.held_of_read found).formed⟩
      covered := by
        intro notHasty
        have before := keeping.covered notHasty
        rw [IsCovered, checked] at before
        rw [IsCovered, taken]
        rcases before with none | ⟨filed, there, newer⟩
        · exact Nat.le_trans (Nat.le_of_eq none) (Nat.zero_le _)
        · change watched.changed ≤ watched.exchange.filed.getD 0
          rw [there]
          exact newer }

theorem Keeping.takeOver (keeping : Keeping first path disk watched) {filed : Option Nat} {bag : Bag}
    (found : watched.watcher = .found filed bag) :
    Keeping first path disk (watched.takeOver filed bag) := by
  obtain ⟨isFiled, formed⟩ := keeping.found filed bag found
  have changes := watched.exchange.document.changes_takeOver bag
  have covered : watched.isHasty = false → watched.changed ≤ filed.getD 0 := by
    intro notHasty
    have before := keeping.covered notHasty
    rwa [IsCovered, found] at before
  unfold Watched.takeOver
  exact {
    unfailed := keeping.unfailed
    orderly := keeping.orderly.change changes
    samePath := keeping.samePath
    formed := Exchange.forall_states_change keeping.formed rfl formed
    untouched := keeping.untouched
    changed_le := Nat.le_trans keeping.changed_le (Exchange.number_le_change _ _)
    unchanged := keeping.unchanged
    found := nofun
    covered := fun _ => trivial
    reverted := by
      intro notHasty
      simpa using ⟨keeping.reverted notHasty, covered notHasty⟩
    shows := by
      intro notReverted number other later there name
      obtain ⟨notBefore, notBehind⟩ := Bool.or_eq_false_iff.mp notReverted
      have newer : watched.changed ≤ filed.getD 0 := by simpa using notBehind
      rcases Exchange.state_change rfl there with old | ⟨-, rfl⟩
      · exact keeping.shows notBefore number other later old name
      -- The state that is taken over was filed after the last change, or there was no change.
      · cases filed with
        | none =>
            rw [isFiled, keeping.unchanged (Nat.le_zero.mp newer)]
            exact Bag.shows_first first name
        | some number =>
            obtain ⟨state, known, rfl⟩ := isFiled
            exact (keeping.shows notBefore number state newer known name).reread }

theorem hasFailed_step (step : Step watched move next) (failed : watched.exchange.hasFailed = true) :
    next.exchange.hasFailed = true := by
  cases step with
  | set | remove =>
      unfold Watched.change
      split <;> exact failed
  | work step => exact Exchange.hasFailed_stays step failed
  | check =>
      unfold Watched.check
      split <;> exact failed
  | read | takeOver => exact failed

theorem keeping_step (opened : first = Document.load disk path)
    (keeping : Keeping first path disk watched) (step : Step watched move next)
    (unfailed : next.exchange.hasFailed = false) : Keeping first path disk next := by
  cases step with
  | set name value _ formed => exact keeping.set name formed
  | remove name _ => exact keeping.remove name
  | work step notSet notRemove => exact keeping.work step notSet notRemove unfailed
  | check => exact keeping.check
  | read checked => exact keeping.read opened checked
  | takeOver found => exact keeping.takeOver found

theorem keeping_run {moves : List Move} (opened : first = Document.load disk path)
    (keeping : Keeping first path disk watched) (run : Run watched moves next)
    (unfailed : next.exchange.hasFailed = false) : Keeping first path disk next := by
  suffices stays : ∀ {before after : Watched} {moves : List Move}, Run before moves after →
      after.exchange.hasFailed = false → before.exchange.hasFailed = false by
    induction run with
    | nil => exact keeping
    | cons step rest ih => exact ih (keeping_step opened keeping step (stays rest unfailed)) unfailed
  intro before after moves run unfailed
  induction run with
  | nil => exact unfailed
  | cons step _ ih =>
      refine Bool.eq_false_iff.mpr fun failed => ?_
      have still := hasFailed_step step failed
      rw [ih unfailed] at still
      cases still

end

/-- While no write fails, what the owner has changed stays, in the bag and in the file once a save
after it is answered, unless the watcher takes over a state from before. It does so only if it began
before the last change was saved and written, or the owner changed something while it was at work. -/
theorem kept_unless_hasty {path : Path} {disk : Disk} {hasWriter : Bool} {moves : List Move}
    {watched : Watched} (run : Run (start path disk hasWriter) moves watched)
    (unfailed : watched.exchange.hasFailed = false) :
    (watched.isHasty = false → watched.hasReverted = false) ∧
    (watched.hasReverted = false →
      (∀ name, watched.exchange.document.bag.Shows (Document.load disk path) watched.changes name) ∧
      ∀ answer ∈ watched.exchange.answers, answer.result = .ok () ∧
        ∀ needs ∈ answer.call.needs, watched.changed ≤ needs →
          ∃ bag, (∀ name, bag.Shows (Document.load disk path) watched.changes name) ∧
            watched.exchange.disk.contents? path = .ok (some (Document.contents bag))) ∧
    (∀ filed bag, watched.watcher = .found filed bag →
      watched.IsFiled (Document.load disk path) filed bag) := by
  have keeping := keeping_run rfl (keeping_start path disk hasWriter) run unfailed
  refine ⟨keeping.reverted, fun notReverted => ⟨?_, ?_⟩, fun filed bag there =>
    (keeping.found filed bag there).1⟩
  · exact keeping.shows notReverted _ _ keeping.changed_le (Exchange.states_number _)
  · intro answer given
    obtain ⟨ok, notMissed⟩ := keeping.orderly.answerable.quiet unfailed answer given
    refine ⟨ok, fun needs there later => ?_⟩
    obtain ⟨filed, found, newer⟩ :=
      keeping.orderly.answerable.answers answer given ok notMissed needs there
    obtain ⟨bag, known, written⟩ := keeping.orderly.tracked.file filed found
    exact ⟨bag, keeping.shows notReverted filed bag (Nat.le_trans later newer) known,
      keeping.samePath ▸ written⟩

def noted : Bag :=
  (Bag.empty.set "a" .null).1

theorem held_noted : noted.Held :=
  Bag.held_empty.set _ ⟨trivial, trivial, Nat.zero_le _⟩

theorem whole_noted : noted.NoDoubles :=
  Bag.noDoubles_empty.set _ trivial

theorem note_kept : ∃ watched,
    Run (start ⟨"/d.json"⟩ .blank false)
      [.use (.set "a" .null), .use (.save 0), .use (.begin (.call ⟨.save, some 1⟩)), .use .read,
        .use (.finish Disk.noTrouble), .check, .read, .takeOver] watched ∧
    watched.exchange.hasFailed = false ∧ watched.isHasty = false ∧
    watched.exchange.answers.length = 1 ∧
    ∀ name, watched.exchange.document.bag.Shows (Document.load .blank ⟨"/d.json"⟩)
      [("a", some .null)] name := by
  have run : Run (start ⟨"/d.json"⟩ .blank false) _ _ :=
    .cons (.set "a" .null rfl ⟨trivial, trivial⟩) <| .cons (.work (.save 0 rfl) nofun nofun) <|
    .cons (.work (.begin_first rfl rfl rfl) nofun nofun) <|
    .cons (.work (.read rfl) nofun nofun) <|
    .cons (.work (.finish Disk.noTrouble rfl) nofun nofun) <| .cons (.check rfl) <|
    .cons (.read rfl) <|
    .cons (.takeOver (watcher_read (Document.read_of_contents? held_noted whole_noted rfl))) <|
    .nil _
  exact ⟨_, run, rfl, rfl, rfl, ((kept_unless_hasty run rfl).2.1 rfl).1⟩

end Watched
end Waymark
