import Waymark.Proofs.Document.Served
import Waymark.Proofs.Settings.Deferred
/-!
# Settings while the writer works

The writer takes its steps at any time, also between what an operation sets and its save and in the
midst of a write. When the settings are left, their file is the one that is written without a writer.
-/

namespace Waymark

namespace Exchange

variable {exchange next last : Exchange} {move : Move}

theorem purpose?_work (work : IsWork move) : purpose? move = none := by
  cases move <;> first | rfl | exact work.elim

theorem kept_work (work : IsWork move) (step : Step exchange move next) :
    next.past = exchange.past ∧ next.document.bag = exchange.document.bag ∧
      next.saved = exchange.saved := by
  obtain ⟨past, bag⟩ := kept_step step (fun _ _ same => (same ▸ work : IsWork (.set ..)))
    fun _ same => (same ▸ work : IsWork (.remove _))
  exact ⟨past, bag, saved_step step fun _ same => (same ▸ work : IsWork (.save _))⟩

theorem clean_work (clean : exchange.document.isPending = false) (work : IsWork move)
    (step : Step exchange move next) : next.document.isPending = false :=
  clean_step clean step fun _ same => (same ▸ work : IsWork (.save _))

theorem Works.keeps {condition : Exchange → Prop}
    (kept : ∀ {exchange next : Exchange} {move : Move}, condition exchange → IsWork move →
      Step exchange move next → condition next)
    (works : exchange.Works next) (holds : condition exchange) : condition next := by
  obtain ⟨moves, run, works⟩ := works
  induction run with
  | nil => exact holds
  | cons step _ ih =>
      obtain ⟨work, works⟩ := List.forall_mem_cons.mp works
      exact ih (kept holds work step) works

structure Rests (exchange next : Exchange) : Prop where
  clean : next.document.isPending = false
  free : next.lock = none
  disk : next.disk = exchange.disk

/-- Without a pending save and a write that goes on, work writes nothing. -/
theorem rests_work (clean : exchange.document.isPending = false) (free : exchange.lock = none)
    (work : IsWork move) (step : Step exchange move next) : exchange.Rests next := by
  have stillClean := clean_work clean work step
  cases effect_of_step step with
  | change => exact ⟨stillClean, free, rfl⟩
  | order unmoved => exact ⟨stillClean, unmoved.lock.trans free, unmoved.disk⟩
  | save unmoved =>
      have pending : next.document.isPending = true := unmoved.isPending
      rw [stillClean] at pending
      cases pending
  | enter _ pending =>
      rw [clean] at pending
      cases pending
  | look begun | finish _ begun =>
      rw [free] at begun
      cases begun

structure OnlySaves (exchange : Exchange) : Prop where
  out : ∀ call, exchange.IsOut call → call.purpose = .save
  answered : ∀ answer ∈ exchange.answers, answer.call.purpose = .save

theorem onlySaves_step (only : exchange.OnlySaves)
    (notOther : purpose? move = none ∨ purpose? move = some .save) (step : Step exchange move next) :
    next.OnlySaves where
  out := by
    intro call out
    rcases isOut_step step out with old | ⟨new, -⟩
    · exact only.out call old
    · rcases notOther with nothing | save
      · exact nomatch nothing.symm.trans new
      · exact Option.some.inj (new.symm.trans save)
  answered := by
    intro answer given
    rcases answer_cases step given with old | ⟨-, -, out, -⟩ | ⟨number, bag, held, -⟩
    · exact only.answered answer old
    · exact only.out answer.call out
    · exact only.out answer.call (.inr (.inr ⟨_, held, rfl⟩))

theorem onlySaves_work (only : exchange.OnlySaves) (work : IsWork move)
    (step : Step exchange move next) : next.OnlySaves :=
  onlySaves_step only (.inl (purpose?_work work)) step

/-- When a flush or a drop returns, nothing is pending and no write goes on. -/
structure Settles (exchange : Exchange) : Prop where
  writing : ∀ write ∈ exchange.lock, ∀ call, write.party = .call call → call.purpose ≠ .save →
    exchange.document.isPending = false
  answered : ∀ answer ∈ exchange.answers, answer.call.purpose ≠ .save →
    exchange.document.isPending = false ∧ exchange.lock = none

theorem settles_of_onlySaves (only : exchange.OnlySaves) (lock : next.lock = exchange.lock)
    (answers : next.answers = exchange.answers) : next.Settles where
  writing := by
    intro write held call same notSave
    exact absurd (only.out call (.inr (.inr ⟨write, lock ▸ held, same⟩))) notSave
  answered := by
    intro answer given notSave
    exact absurd (only.answered answer (answers ▸ given)) notSave

theorem settles_work (settles : exchange.Settles) (work : IsWork move)
    (step : Step exchange move next) : next.Settles where
  writing := by
    intro write held call same notSave
    cases effect_of_step step with
    | change => exact clean_work (settles.writing write held call same notSave) work step
    | save unmoved | order unmoved =>
        exact clean_work (settles.writing write (unmoved.lock ▸ held) call same notSave) work step
    | enter => rfl
    | look begun =>
        cases held
        exact clean_work (settles.writing _ begun call same notSave) work step
    | finish trouble begun =>
        unfold finish at held
        rw [(unmoved_release _ _ _).lock, settle_eq] at held
        cases held
  answered := by
    intro answer given notSave
    rcases answer_cases step given with old | ⟨free, clean, -⟩ | ⟨number, bag, held, free, -⟩
    · obtain ⟨clean, free⟩ := settles.answered answer old notSave
      have rests := rests_work clean free work step
      exact ⟨rests.clean, rests.free⟩
    · have rests := rests_work clean free work step
      exact ⟨rests.clean, rests.free⟩
    · exact ⟨clean_work (settles.writing _ held _ rfl notSave) work step, free⟩

end Exchange

namespace Settings

open Exchange

inductive Carried : Exchange → List Operation → List Outcome → Exchange → Prop where
  | nil (exchange : Exchange) : Carried exchange [] [] exchange
  | work {first next last : Exchange} {move : Move} {operations : List Operation}
      {outcomes : List Outcome} (work : IsWork move) (step : Step first move next)
      (rest : Carried next operations outcomes last) : Carried first operations outcomes last
  | skip {first last : Exchange} {operation : Operation} {operations : List Operation}
      {outcomes : List Outcome} (nothing : operation.request? first.document.bag = none)
      (rest : Carried first operations outcomes last) :
      Carried first (operation :: operations)
        (operation.outcome first.document.bag :: outcomes) last
  | save {first changed ready saved last : Exchange} {operation : Operation} {name : String}
      {value : Json} {operations : List Operation} {outcomes : List Outcome}
      (request : operation.request? first.document.bag = some (name, value))
      (set : Step first (.set name value) changed) (works : changed.Works ready)
      (save : Step ready (.save Document.soon) saved)
      (rest : Carried saved operations outcomes last) :
      Carried first (operation :: operations)
        (operation.outcome first.document.bag :: outcomes) last

structure Has (path : Path) (bag : Bag) (exchange : Exchange) : Prop where
  orderly : exchange.Orderly
  samePath : exchange.document.path = path
  bag : exchange.document.bag = bag

/-- What the operations have come to is saved, unless there was nothing to save. -/
structure Owes (first : Disk) (path : Path) (progress : Progress) (exchange : Exchange) : Prop where
  has : Has path progress.bag exchange
  unsaved : progress.isSaved = false →
    exchange.document.isPending = false ∧ exchange.lock = none ∧ exchange.disk = first
  saved : progress.isSaved = true → exchange.saved = some exchange.number

variable {exchange next last : Exchange} {move : Move} {path : Path} {bag : Bag} {first : Disk}
  {progress : Progress}

theorem Has.work (has : Has path bag exchange) (work : IsWork move)
    (step : Step exchange move next) : Has path bag next where
  orderly := orderly_step has.orderly step
  samePath := (file_step step).1.trans has.samePath
  bag := (kept_work work step).2.1.trans has.bag

theorem Has.set (has : Has path bag exchange) {name : String} {value : Json}
    (step : Step exchange (.set name value) next) : Has path (bag.set name value).1 next where
  orderly := orderly_step has.orderly step
  samePath := (file_step step).1.trans has.samePath
  bag := by
    cases step
    rw [← has.bag]
    exact (Document.set_bag exchange.document name value).1

theorem Has.save (has : Has path bag exchange) {delay : Nat}
    (step : Step exchange (.save delay) next) (outcomes : List Outcome) :
    Owes first path ⟨bag, true, outcomes⟩ next where
  has := {
    orderly := orderly_step has.orderly step
    samePath := (file_step step).1.trans has.samePath
    bag := (kept_step step nofun nofun).2.trans has.bag }
  unsaved := nofun
  saved := by
    intro _
    cases step
    have unmoved := exchange.unmoved_save delay
    rw [unmoved.saved, Exchange.number, unmoved.past]
    rfl

theorem Owes.work (owes : Owes first path progress exchange) (work : IsWork move)
    (step : Step exchange move next) : Owes first path progress next where
  has := owes.has.work work step
  unsaved := by
    intro unsaved
    obtain ⟨clean, free, disk⟩ := owes.unsaved unsaved
    have rests := rests_work clean free work step
    exact ⟨rests.clean, rests.free, rests.disk.trans disk⟩
  saved := by
    intro saved
    obtain ⟨past, -, same⟩ := kept_work work step
    rw [same, owes.saved saved, Exchange.number, Exchange.number, past]

theorem Owes.skip (owes : Owes first path progress exchange) {operation : Operation}
    (nothing : operation.request? exchange.document.bag = none) :
    Owes first path (progress.after operation) exchange := by
  rw [owes.has.bag] at nothing
  rw [Progress.after, nothing]
  exact ⟨owes.has, owes.unsaved, owes.saved⟩

theorem Owes.save (owes : Owes first path progress exchange) {operation : Operation} {name : String}
    {value : Json} {changed ready : Exchange}
    (request : operation.request? exchange.document.bag = some (name, value))
    (set : Step exchange (.set name value) changed) (works : changed.Works ready)
    (save : Step ready (.save Document.soon) next) :
    Owes first path (progress.after operation) next := by
  rw [owes.has.bag] at request
  rw [Progress.after, request]
  exact (works.keeps Has.work (owes.has.set set)).save save _

theorem Progress.outcomes_after (progress : Progress) (operation : Operation) :
    (progress.after operation).outcomes =
      progress.outcomes ++ [operation.outcome progress.bag] := by
  unfold Progress.after
  split <;> rfl

section
variable {operations : List Operation} {outcomes : List Outcome}

theorem onlySaves_carried (only : exchange.OnlySaves)
    (carried : Carried exchange operations outcomes last) : last.OnlySaves := by
  induction carried with
  | nil => exact only
  | work work step _ ih => exact ih (onlySaves_work only work step)
  | skip _ _ ih => exact ih only
  | save _ set works save _ ih =>
      have changed := onlySaves_step only (.inl rfl) set
      exact ih (onlySaves_step (works.keeps onlySaves_work changed) (.inr rfl) save)

theorem Owes.carried (owes : Owes first path progress exchange)
    (carried : Carried exchange operations outcomes last) :
    Owes first path (operations.foldl Progress.after progress) last ∧
      (operations.foldl Progress.after progress).outcomes = progress.outcomes ++ outcomes := by
  induction carried generalizing progress with
  | nil => exact ⟨owes, (List.append_nil _).symm⟩
  | work work step _ ih => exact ih (owes.work work step)
  | skip nothing _ ih =>
      obtain ⟨owed, same⟩ := ih (owes.skip nothing)
      refine ⟨owed, same.trans ?_⟩
      rw [progress.outcomes_after, owes.has.bag, List.append_assoc, List.singleton_append]
  | save request set works save _ ih =>
      obtain ⟨owed, same⟩ := ih (owes.save request set works save)
      refine ⟨owed, same.trans ?_⟩
      rw [progress.outcomes_after, owes.has.bag, List.append_assoc, List.singleton_append]

end

theorem owes_start (path : Path) (hasWriter : Bool) (disk : Disk) :
    Owes disk path (.start (Document.load disk path))
      (Exchange.start (.open disk path hasWriter) disk) where
  has := ⟨orderly_start path _ hasWriter disk, rfl, rfl⟩
  unsaved _ := ⟨rfl, rfl, rfl⟩
  saved := nofun

theorem onlySaves_start (document : Document) (disk : Disk) :
    (Exchange.start document disk).OnlySaves where
  out call out := absurd out (by simp [IsOut, Exchange.start])
  answered := nofun

/-- A flush or a drop, and what follows until it returns. -/
structure Leaves (exchange last : Exchange) : Prop where
  called : ∃ called, (Step exchange .flush called ∨ Step exchange .drop called) ∧
    called.Works last
  returned : ∃ answer ∈ last.answers, answer.call.purpose ≠ .save

theorem unmoved_leave (step : Step exchange .flush next ∨ Step exchange .drop next) :
    exchange.Unmoved next ∧ next.answers = exchange.answers := by
  rcases step with flush | drop
  · cases flush
    refine ⟨exchange.unmoved_flush, ?_⟩
    unfold Exchange.flush
    split <;> rfl
  · cases drop
    exact ⟨exchange.unmoved_besides .., rfl⟩

theorem Owes.leave (owes : Owes first path progress exchange)
    (step : Step exchange .flush next ∨ Step exchange .drop next) :
    Owes first path progress next := by
  obtain ⟨unmoved, -⟩ := unmoved_leave step
  refine ⟨⟨?_, unmoved.path.trans owes.has.samePath, unmoved.bag.trans owes.has.bag⟩, ?_, ?_⟩
  · rcases step with flush | drop
    · exact orderly_step owes.has.orderly flush
    · exact orderly_step owes.has.orderly drop
  · intro unsaved
    rw [unmoved.isPending, unmoved.lock, unmoved.disk]
    exact owes.unsaved unsaved
  · intro saved
    rw [unmoved.saved, owes.saved saved, Exchange.number, Exchange.number, unmoved.past]

theorem Owes.written (owes : Owes first path progress exchange)
    (clean : exchange.document.isPending = false) (free : exchange.lock = none)
    (unfailed : exchange.hasFailed = false) (isSaved : progress.isSaved = true) :
    exchange.disk.contents? path = .ok (some (Document.contents progress.bag)) := by
  have tracked := owes.has.orderly.tracked
  obtain ⟨filed, there, newer⟩ :=
    hasFiled_of_saved tracked unfailed clean free _ (owes.saved isSaved)
  -- No state is newer than the one that was saved last, so that one is in the file.
  cases Nat.le_antisymm newer (tracked.filed_le filed there)
  obtain ⟨bag, known, contents⟩ := tracked.file _ there
  cases Option.some.inj (known.symm.trans (states_number exchange))
  rw [← owes.has.samePath, ← owes.has.bag]
  exact contents

structure Left (first : Disk) (path : Path) (progress : Progress) (outcomes : List Outcome)
    (document : Document) (disk : Disk) : Prop where
  outcomes : outcomes = progress.outcomes
  bag : document.bag = progress.bag
  clean : document.isPending = false
  unsaved : progress.isSaved = false → disk = first
  saved : progress.isSaved = true →
    disk.contents? path = .ok (some (Document.contents progress.bag))

theorem left_of_carried {disk : Disk} {hasWriter : Bool} {operations : List Operation}
    {outcomes : List Outcome}
    (carried : Carried (Exchange.start (.open disk path hasWriter) disk) operations outcomes exchange)
    (leaves : Leaves exchange last) (unfailed : last.hasFailed = false) :
    Left disk path (.of (Document.load disk path) operations) outcomes last.document last.disk := by
  obtain ⟨owes, same⟩ := (owes_start path hasWriter disk).carried carried
  have only := onlySaves_carried (onlySaves_start _ disk) carried
  obtain ⟨⟨called, step, works⟩, answer, given, notSave⟩ := leaves
  obtain ⟨unmoved, answers⟩ := unmoved_leave step
  have settles := works.keeps settles_work (settles_of_onlySaves only unmoved.lock answers)
  obtain ⟨clean, free⟩ := settles.answered answer given notSave
  have owed := works.keeps Owes.work (owes.leave step)
  exact {
    outcomes := same.symm
    bag := owed.has.bag
    clean := clean
    unsaved := fun unsaved => (owed.unsaved unsaved).2.2
    saved := owed.written clean free unfailed }

/-- Two ways to use settings come to the same bag and the same file, and leave nothing to be written.
The disk is as it was when nothing was saved. -/
structure SameEnd (first : Disk) (path : Path) (left otherLeft : Document × Disk) : Prop where
  bag : left.1.bag = otherLeft.1.bag
  clean : left.1.isPending = false
  otherClean : otherLeft.1.isPending = false
  file : left.2 = first ∧ otherLeft.2 = first ∨
    left.2.contents? path = .ok (some (Document.contents left.1.bag)) ∧
      otherLeft.2.contents? path = .ok (some (Document.contents left.1.bag))

theorem Left.same {progress : Progress} {outcomes others : List Outcome}
    {document other : Document} {disk otherDisk : Disk}
    (left : Left first path progress outcomes document disk)
    (otherLeft : Left first path progress others other otherDisk) :
    outcomes = others ∧ SameEnd first path (document, disk) (other, otherDisk) := by
  refine ⟨left.outcomes.trans otherLeft.outcomes.symm, left.bag.trans otherLeft.bag.symm, left.clean,
    otherLeft.clean, ?_⟩
  rw [left.bag]
  cases any : progress.isSaved with
  | false => exact .inl ⟨left.unsaved any, otherLeft.unsaved any⟩
  | true => exact .inr ⟨left.saved any, otherLeft.saved any⟩

theorem Carried.append {operations more : List Operation} {outcomes others : List Outcome}
    (carried : Carried exchange operations outcomes next) (rest : Carried next more others last) :
    Carried exchange (operations ++ more) (outcomes ++ others) last := by
  induction carried with
  | nil => exact rest
  | work work step _ ih => exact .work work step (ih rest)
  | skip nothing _ ih => exact .skip nothing (ih rest)
  | save request set works save _ ih => exact .save request set works save (ih rest)

theorem carried_of_works (works : exchange.Works next) : Carried exchange [] [] next := by
  obtain ⟨moves, run, works⟩ := works
  induction run with
  | nil => exact .nil _
  | cons step _ ih =>
      obtain ⟨work, others⟩ := List.forall_mem_cons.mp works
      exact .work work step (ih others)

theorem carried_perform (rest : exchange.AtRest []) (operation : Operation) : ∃ outcome next,
    Carried exchange [operation] [outcome] next ∧ next.AtRest [] ∧
      perform exchange.document exchange.disk operation = (next.document, next.disk, outcome) := by
  rw [perform_eq rest.accepts]
  cases request : operation.request? exchange.document.bag with
  | none => exact ⟨_, exchange, .skip request (.nil _), rest, rfl⟩
  | some asked =>
      obtain ⟨name, value⟩ := asked
      have ready := atRest_change rest (exchange.document.changes_set name value)
      obtain ⟨next, works, nextRest, document, disk⟩ := works_save ready Document.soon
      refine ⟨_, next, .save request (.set name value rest.isOpen) (works_refl _)
        (.save Document.soon ready.isOpen) (carried_of_works works), nextRest, ?_⟩
      rw [document, disk]
      rfl

theorem carried_run (rest : exchange.AtRest []) (events : List Event) (before : List Outcome) :
    ∃ outcomes next, Carried exchange (operations events) outcomes next ∧ next.AtRest [] ∧
      (Use.mk exchange.document exchange.disk before).run events =
        ⟨next.document, next.disk, before ++ outcomes⟩ := by
  induction events generalizing exchange before with
  | nil => exact ⟨[], exchange, .nil _, rest, by rw [List.append_nil]; rfl⟩
  | cons event events ih =>
      cases event with
      | operate operation =>
          obtain ⟨outcome, middle, carried, middleRest, performed⟩ := carried_perform rest operation
          obtain ⟨outcomes, next, more, nextRest, ran⟩ := ih middleRest (before ++ [outcome])
          refine ⟨outcome :: outcomes, next, carried.append more, nextRest, ?_⟩
          rw [List.append_assoc] at ran
          rw [Use.run, List.foldl_cons, Use.act, performed]
          exact ran
      | due now =>
          obtain ⟨middle, works, middleRest, served⟩ := works_expire rest (now + 1)
          obtain ⟨outcomes, next, more, nextRest, ran⟩ := ih middleRest before
          refine ⟨outcomes, next, (carried_of_works works).append more, nextRest, ?_⟩
          rw [Use.run, List.foldl_cons, Use.act, Document.serveDue, ← served]
          exact ran
      | wait now later =>
          obtain ⟨middle, works, middleRest, served⟩ := works_wait rest now later
          obtain ⟨outcomes, next, more, nextRest, ran⟩ := ih middleRest before
          refine ⟨outcomes, next, (carried_of_works works).append more, nextRest, ?_⟩
          rw [Use.run, List.foldl_cons, Use.act, ← served]
          exact ran

theorem leaves_finish (rest : exchange.AtRest []) (ending : Use.Ending) (outcomes : List Outcome) :
    ∃ last, Leaves exchange last ∧ last.hasFailed = false ∧
      (Use.mk exchange.document exchange.disk outcomes).finish ending =
        (last.document, last.disk) := by
  cases ending with
  | flush now =>
      obtain ⟨last, wasMissed, works, lastRest, document, disk, answers⟩ := works_flush rest now
      refine ⟨last, ⟨⟨_, .inl (.flush rest.isOpen), works⟩, ?_⟩, lastRest.unfailed, ?_⟩
      · rw [answers]
        exact ⟨_, List.mem_cons_self, nofun⟩
      · rw [document, disk]
        rfl
  | drop =>
      obtain ⟨last, wasMissed, step, works, unfailed, document, disk, answers⟩ := works_drop rest
      refine ⟨last, ⟨⟨_, .inr step, works⟩, ?_⟩, unfailed, ?_⟩
      · rw [answers]
        exact ⟨_, List.mem_cons_self, nofun⟩
      · rw [document, disk]
        rfl

theorem carried_use {disk : Disk} (accepts : disk.Accepts path) (hasWriter : Bool)
    (events : List Event) (ending : Use.Ending) :
    let use := (Use.start disk path hasWriter).run events
    ∃ exchange last, Carried (Exchange.start (.open disk path hasWriter) disk) (operations events)
        use.outcomes exchange ∧
      Leaves exchange last ∧ last.hasFailed = false ∧
      use.finish ending = (last.document, last.disk) := by
  have rest := atRest_start accepts (Document.load disk path) hasWriter
  obtain ⟨outcomes, exchange, carried, exchangeRest, ran⟩ := carried_run rest events []
  obtain ⟨last, leaves, unfailed, finished⟩ := leaves_finish exchangeRest ending outcomes
  intro use
  have same : use = ⟨exchange.document, exchange.disk, outcomes⟩ := ran
  rw [same]
  exact ⟨exchange, last, carried, leaves, unfailed, finished⟩

/-- Whether there is a writer or not, however much time passes between operations and whichever way
the settings are left: what they gave, their bag and the bytes of their file are the same, and
nothing is left to be written. Such a use is one of the ways in which the steps of the writer come
between those of operations, and without failures all of them end alike. -/
theorem same_file_written {disk : Disk} {path : Path} (accepts : disk.Accepts path)
    (hasWriter otherHasWriter : Bool) (events others : List Event)
    (same : operations events = operations others) (ending otherEnding : Use.Ending) :
    let use := (Use.start disk path hasWriter).run events
    let other := (Use.start disk path otherHasWriter).run others
    let left := use.finish ending
    let otherLeft := other.finish otherEnding
    (use.outcomes = other.outcomes ∧ SameEnd disk path left otherLeft) ∧
    (∃ exchange last, Carried (Exchange.start (.open disk path hasWriter) disk) (operations events)
        use.outcomes exchange ∧
      Leaves exchange last ∧ last.hasFailed = false ∧ left = (last.document, last.disk)) ∧
    ∀ outcomes exchange last, Carried (Exchange.start (.open disk path otherHasWriter) disk)
        (operations events) outcomes exchange → Leaves exchange last → last.hasFailed = false →
      use.outcomes = outcomes ∧ SameEnd disk path left (last.document, last.disk) := by
  intro use other left otherLeft
  obtain ⟨exchange, last, carried, leaves, unfailed, finished⟩ :=
    carried_use accepts hasWriter events ending
  have ends := left_of_carried carried leaves unfailed
  have alike : ∀ outcomes exchange last, Carried (Exchange.start (.open disk path otherHasWriter) disk)
        (operations events) outcomes exchange → Leaves exchange last → last.hasFailed = false →
      use.outcomes = outcomes ∧ SameEnd disk path left (last.document, last.disk) := by
    intro outcomes _ last carried leaves unfailed
    rw [show left = _ from finished]
    exact ends.same (left_of_carried carried leaves unfailed)
  refine ⟨?_, ⟨exchange, last, carried, leaves, unfailed, finished⟩, alike⟩
  obtain ⟨there, otherLast, carried, leaves, unfailed, finished⟩ :=
    carried_use accepts otherHasWriter others otherEnding
  rw [show otherLeft = _ from finished]
  exact alike _ there otherLast (same ▸ carried) leaves unfailed

def bindings : List Event :=
  [.operate (.setShortcut "open" "Ctrl+O"), .operate (.setShortcut "close" "Ctrl+W")]

def slowBindings : List Event :=
  [.operate (.setShortcut "open" "Ctrl+O"), .wait 0 301, .operate (.setShortcut "close" "Ctrl+W")]

def bindAndSave (exchange : Exchange) (command keys : String) : Exchange :=
  let value := Operation.shortcutsWith exchange.document.bag command keys
  (exchange.change (exchange.document.set "shortcuts" value)).save Document.soon

def bothBound : Exchange :=
  bindAndSave (bindAndSave (.start (.open .blank ⟨"/d.json"⟩ true) .blank) "open" "Ctrl+O") "close"
    "Ctrl+W"

theorem carried_bindings :
    Carried (Exchange.start (.open .blank ⟨"/d.json"⟩ true) .blank) (operations bindings)
      [.changed true, .changed true] bothBound :=
  .save rfl (.set "shortcuts" _ rfl) (works_refl _) (.save Document.soon rfl) <|
    .save rfl (.set "shortcuts" _ rfl) (works_refl _) (.save Document.soon rfl) (.nil _)

theorem leaves_bothBound : ∃ last, Leaves bothBound last ∧ last.hasFailed = false := by
  have run : Run bothBound.flush _ _ :=
    .cons (.take 0 rfl rfl) <| .cons (.take 0 rfl rfl) <| .cons (.expire rfl rfl) <|
    .cons (.begin_first rfl rfl rfl) <| .cons (.read rfl) <|
    .cons (.finish Disk.noTrouble rfl) <| .cons (.take 1 rfl rfl) <|
    .cons (.pass_first rfl rfl rfl) <| .cons (.answer rfl) <| .cons (.pass_first rfl rfl rfl) <|
    .nil _
  exact ⟨_, ⟨⟨_, .inl (.flush rfl), _, run, by simp [IsWork]⟩, ⟨_, .head _, nofun⟩⟩, rfl⟩

theorem bindings_written :
    let left := ((Use.start .blank ⟨"/d.json"⟩ false).run bindings).finish .drop
    let otherLeft := ((Use.start .blank ⟨"/d.json"⟩ true).run slowBindings).finish (.flush 400)
    Disk.blank.Accepts ⟨"/d.json"⟩ ∧ operations bindings = operations slowBindings ∧
      left.1.bag = otherLeft.1.bag ∧ left.1.isPending = false ∧ otherLeft.1.isPending = false ∧
      left.2.contents? ⟨"/d.json"⟩ = otherLeft.2.contents? ⟨"/d.json"⟩ ∧
      ∃ last, Leaves bothBound last ∧ last.hasFailed = false ∧
        left.1.bag = last.document.bag ∧ last.document.isPending = false := by
  intro left otherLeft
  have written := same_file_written Disk.accepts_blank false true bindings slowBindings rfl .drop
    (.flush 400)
  obtain ⟨⟨-, same⟩, -, alike⟩ := written
  obtain ⟨last, leaves, unfailed⟩ := leaves_bothBound
  have interleaved := (alike _ bothBound last carried_bindings leaves unfailed).2
  refine ⟨Disk.accepts_blank, rfl, same.bag, same.clean, same.otherClean, ?_, last, leaves, unfailed,
    interleaved.bag, interleaved.otherClean⟩
  rcases same.file with untouched | file
  · exact (congrArg (Disk.contents? · ⟨"/d.json"⟩) untouched.1).trans
      (congrArg (Disk.contents? · ⟨"/d.json"⟩) untouched.2).symm
  · exact file.1.trans file.2.symm

end Settings
end Waymark
