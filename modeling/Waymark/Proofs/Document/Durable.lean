import Waymark.Proofs.Document.Answered
/-!
# Durable saves

What every run of a document in use brings about: while no write fails, each saved state is written
and none is written twice; when a write fails, the state that it was to write is forgotten until
the next save.
-/

namespace Waymark.Exchange

variable {exchange next last : Exchange} {move : Move} {moves : List Move}

structure Orderly (exchange : Exchange) : Prop where
  attended : exchange.Attended
  tracked : exchange.Tracked
  answerable : exchange.Answerable

theorem orderly_start (path : Path) (bag : Bag) (hasWriter : Bool) (disk : Disk) :
    (start (.ofBag path bag hasWriter) disk).Orderly where
  attended := nofun
  tracked := tracked_start _ disk
  answerable := answerable_start _ disk

theorem orderly_step (orderly : exchange.Orderly) (step : Step exchange move next) :
    next.Orderly where
  attended := attended_step orderly.attended step
  tracked := tracked_step orderly.tracked step
  answerable := answerable_step orderly.answerable orderly.tracked step

theorem orderly_run (orderly : exchange.Orderly) (run : Run exchange moves last) :
    last.Orderly := by
  induction run with
  | nil => exact orderly
  | cons step _ ih => exact ih (orderly_step orderly step)

theorem run_filed_grows (orderly : exchange.Orderly) (run : Run exchange moves last) :
    ∀ filed ∈ exchange.filed, ∃ later ∈ last.filed, filed ≤ later := by
  induction run with
  | nil => exact fun filed there => ⟨filed, there, Nat.le_refl _⟩
  | cons step _ ih =>
      intro filed there
      obtain ⟨middle, found, newer⟩ := filed_grows orderly.tracked step filed there
      obtain ⟨later, reached, more⟩ := ih (orderly_step orderly step) middle found
      exact ⟨later, reached, Nat.le_trans newer more⟩

section
variable {outcome : Document × Bool}

theorem length_states (exchange : Exchange) : exchange.states.length = exchange.number + 1 := by
  simp [states, number]

theorem states_change_of_true (flag : outcome.2 = true) :
    (exchange.change outcome).states = exchange.states ++ [outcome.1.bag] ∧
      (exchange.change outcome).number = exchange.number + 1 := by
  simp [states, number, change, flag]

theorem kept_change (changes : exchange.document.Changes outcome) (flag : outcome.2 = false) :
    (exchange.change outcome).past = exchange.past ∧
      (exchange.change outcome).document.bag = exchange.document.bag :=
  ⟨by simp [change, flag], changes.bag flag⟩

theorem state_change {number : Nat} {bag : Bag} (flag : outcome.2 = true)
    (there : (exchange.change outcome).states[number]? = some bag) :
    exchange.states[number]? = some bag ∨ number = exchange.number + 1 ∧ bag = outcome.1.bag := by
  rw [(states_change_of_true flag).1, List.getElem?_append] at there
  split at there
  · exact .inl there
  · rename_i outside
    have here : number - exchange.states.length = 0 := by
      have inside := (List.getElem?_eq_some_iff.mp there).1
      simpa using inside
    rw [here] at there
    rw [length_states] at here outside
    exact .inr ⟨by omega, (Option.some.inj there).symm⟩

theorem forall_states_change {condition : Bag → Prop}
    (all : ∀ bag ∈ exchange.states, condition bag) (flag : outcome.2 = true)
    (new : condition outcome.1.bag) : ∀ bag ∈ (exchange.change outcome).states, condition bag := by
  intro bag inside
  rw [(states_change_of_true flag).1] at inside
  rcases List.mem_append.mp inside with old | last
  · exact all bag old
  · exact List.mem_singleton.mp last ▸ new

theorem Orderly.change (orderly : exchange.Orderly) (changes : exchange.document.Changes outcome) :
    (exchange.change outcome).Orderly where
  attended := orderly.attended.change changes
  tracked := orderly.tracked.change changes
  answerable := ⟨orderly.answerable.calls, orderly.answerable.own, orderly.answerable.answers,
    orderly.answerable.quiet⟩

end

theorem states_of_kept
    (kept : next.past = exchange.past ∧ next.document.bag = exchange.document.bag) :
    next.states = exchange.states ∧ next.number = exchange.number := by
  rw [states, states, number, number, kept.1, kept.2]
  exact ⟨rfl, rfl⟩

theorem kept_step (step : Step exchange move next) (notSet : ∀ name value, move ≠ .set name value)
    (notRemove : ∀ name, move ≠ .remove name) :
    next.past = exchange.past ∧ next.document.bag = exchange.document.bag := by
  cases step with
  | set name value => exact absurd rfl (notSet name value)
  | remove name => exact absurd rfl (notRemove name)
  | save delay => exact ⟨(exchange.unmoved_save delay).past, (exchange.unmoved_save delay).bag⟩
  | flush => exact ⟨exchange.unmoved_flush.past, exchange.unmoved_flush.bag⟩
  | drop | expire | answer | begin | read => exact ⟨rfl, rfl⟩
  | @take request => cases request <;> exact ⟨rfl, rfl⟩
  | @stop deadline => cases deadline <;> exact ⟨rfl, rfl⟩
  | @pass party => cases party <;> exact ⟨rfl, rfl⟩
  | @finish party number bag trouble =>
      unfold finish
      rw [(unmoved_release _ _ _).past, (unmoved_release _ _ _).bag, settle_eq]
      exact ⟨rfl, (exchange.document.endWrite_eq _).2.2.2⟩

theorem saved_step (step : Step exchange move next) (notSave : ∀ delay, move ≠ .save delay) :
    next.saved = exchange.saved := by
  cases step with
  | save delay => exact absurd rfl (notSave delay)
  | flush => exact exchange.unmoved_flush.saved
  | set | remove | drop | expire | answer | begin | read => rfl
  | @take request => cases request <;> rfl
  | @stop deadline => cases deadline <;> rfl
  | @pass party => cases party <;> rfl
  | @finish party number bag trouble =>
      unfold finish
      rw [(unmoved_release _ _ _).saved, settle_eq]

theorem file_step (step : Step exchange move next) :
    next.document.path = exchange.document.path ∧ (next.hasFailed = false → next.filed = none →
      exchange.filed = none ∧ next.disk = exchange.disk) := by
  cases effect_of_step step with
  | change changes => exact ⟨changes.path, fun _ none => ⟨none, rfl⟩⟩
  | save unmoved | order unmoved =>
      exact ⟨unmoved.path, fun _ none => ⟨unmoved.filed.symm.trans none, unmoved.disk⟩⟩
  | enter | look => exact ⟨rfl, fun _ none => ⟨none, rfl⟩⟩
  | @finish party number bag trouble begun =>
      unfold finish
      rw [(unmoved_release _ _ _).path, (unmoved_release _ _ _).hasFailed,
        (unmoved_release _ _ _).filed, settle_eq]
      refine ⟨(exchange.document.endWrite_eq _).2.2.1, fun unfailed none => ?_⟩
      dsimp only at unfailed none
      cases ok : (exchange.disk.replaceCourse trouble exchange.document.path
        (Document.contents bag)).result.isOk <;> simp [ok] at unfailed none

theorem hasFiled_of_saved (tracked : exchange.Tracked) (unfailed : exchange.hasFailed = false)
    (clean : exchange.document.isPending = false) (free : exchange.lock = none) :
    ∀ saved ∈ exchange.saved, exchange.HasFiled saved := by
  intro saved there
  rcases tracked.covered saved there with filed | pending | missed | ⟨write, held, -⟩
  · exact filed
  · rw [clean] at pending
    cases pending
  · have failed := (tracked.missed missed).2.2
    rw [unfailed] at failed
    cases failed
  · rw [free] at held
    cases held

theorem clean_step (clean : exchange.document.isPending = false) (step : Step exchange move next)
    (notSave : ∀ delay, move ≠ .save delay) : next.document.isPending = false := by
  cases step with
  | set name value _ => exact (exchange.document.changes_set name value).isPending.trans clean
  | remove name _ => exact (exchange.document.changes_remove name).isPending.trans clean
  | save delay _ => exact absurd rfl (notSave delay)
  | flush _ => exact exchange.unmoved_flush.isPending.trans clean
  | begin => rfl
  | drop | expire | answer | read => exact clean
  | @take request rest deadline now idle first => cases request <;> exact clean
  | @stop deadline _ _ _ => cases deadline <;> exact clean
  | pass =>
      rw [release_document]
      exact clean
  | finish trouble begun =>
      unfold finish
      rw [release_document, settle_eq]
      exact (exchange.document.endWrite_eq _).1.trans clean

theorem clean_run (clean : exchange.document.isPending = false) (run : Run exchange moves last)
    (noSave : ∀ delay, .save delay ∉ moves) : last.document.isPending = false := by
  induction run with
  | nil => exact clean
  | @cons first second last move moves step _ ih =>
      have notSave : ∀ delay, move ≠ .save delay := by
        rintro delay rfl
        exact noSave delay List.mem_cons_self
      exact ih (clean_step clean step notSave) fun delay there =>
        noSave delay (List.mem_cons_of_mem _ there)

theorem save_between_writes {before between after : List Move} {first second : Party}
    (run : Run exchange (before ++ .begin first :: between ++ .begin second :: after) last) :
    ∃ delay, .save delay ∈ between := by
  rw [List.append_assoc, List.cons_append] at run
  obtain ⟨_, begun, -, begins, run⟩ := run.split
  obtain ⟨there, _, middle, beginsAgain, -⟩ := run.split
  have clean : begun.document.isPending = false := by
    cases begins
    rfl
  -- The first write has taken the mark away, and only a save sets it again.
  apply Classical.byContradiction
  intro none
  have still := clean_run clean middle fun delay saved => none ⟨delay, saved⟩
  cases beginsAgain with
  | begin _ pending _ =>
      rw [still] at pending
      cases pending

/-- While no write fails, a pending document is attended to, and without work under way the file
holds what was saved last, or a later state. The file never goes back to an earlier one, each write
has a save of its own, and what a flush or a drop has waited for is written when it is answered. -/
theorem saves_written_once {path : Path} {bag : Bag} {hasWriter : Bool} {disk : Disk}
    (run : Run (start (.ofBag path bag hasWriter) disk) moves exchange)
    (unfailed : exchange.hasFailed = false) :
    (exchange.document.isPending = true →
      exchange.HasRequest ∨ exchange.IsArmed ∨ exchange.InProgress) ∧
    (exchange.document.isPending = false → ¬exchange.InProgress →
      ∀ saved ∈ exchange.saved, ∃ number, saved ≤ number ∧ exchange.FileHolds number) ∧
    (∀ filed ∈ exchange.filed, exchange.FileHolds filed ∧ ∀ more last, Run exchange more last →
      ∃ later ∈ last.filed, filed ≤ later ∧ last.FileHolds later) ∧
    (∀ before between after first second,
      moves = before ++ .begin first :: between ++ .begin second :: after →
        ∃ delay, .save delay ∈ between) ∧
    (∀ answer ∈ exchange.answers, answer.result = .ok () ∧
      ∀ needs ∈ answer.call.needs, ∃ number, needs ≤ number ∧ exchange.FileHolds number) := by
  have orderly := orderly_run (orderly_start path bag hasWriter disk) run
  have written : ∀ number, exchange.HasFiled number →
      ∃ later, number ≤ later ∧ exchange.FileHolds later := by
    rintro number ⟨filed, there, newer⟩
    exact ⟨filed, newer, orderly.tracked.file filed there⟩
  refine ⟨?_, ?_, ?_, ?_, ?_⟩
  · intro pending
    rcases orderly.attended pending with requested | armed | waiting
    · exact .inl requested
    · exact .inr (.inl armed)
    · exact .inr (.inr (.inr waiting))
  · intro clean idle saved there
    rcases orderly.tracked.covered saved there with filed | pending | missed | ⟨write, held, -⟩
    · exact written saved filed
    · rw [clean] at pending
      cases pending
    · have failed := (orderly.tracked.missed missed).2.2
      rw [unfailed] at failed
      cases failed
    · have busy : exchange.InProgress := .inl fun free => by
        rw [free] at held
        cases held
      exact absurd busy idle
  · intro filed there
    refine ⟨orderly.tracked.file filed there, ?_⟩
    intro more last rest
    obtain ⟨later, found, newer⟩ := run_filed_grows orderly rest filed there
    exact ⟨later, found, newer, (orderly_run orderly rest).tracked.file later found⟩
  · rintro before between after first second rfl
    exact save_between_writes run
  · intro answer given
    obtain ⟨ok, notMissed⟩ := orderly.answerable.quiet unfailed answer given
    exact ⟨ok, fun needs there =>
      written needs (orderly.answerable.answers answer given ok notMissed needs there)⟩

/-- The flush comes while the deferred write still runs, after a change that was not saved, and the
drop while another write is deferred. -/
theorem flush_and_drop_written_once : ∃ exchange,
    Run (start (.ofBag ⟨"/d.json"⟩ .empty true) ⟨[], []⟩)
      [.save 300, .take 0, .expire, .begin .task, .set "a" .null, .flush, .read,
        .finish Disk.noTrouble, .take 1, .pass .task, .answer, .pass (.call ⟨.flush, some 0⟩),
        .set "b" .null, .save 300, .take 2, .drop, .begin (.call ⟨.drop, some 2⟩), .read,
        .finish Disk.noTrouble]
      exchange ∧
    exchange.hasFailed = false ∧
    exchange.answers.map Answer.call = [⟨.drop, some 2⟩, ⟨.flush, some 0⟩] ∧
    ∀ answer ∈ exchange.answers, answer.result = .ok () ∧
      ∀ needs ∈ answer.call.needs, ∃ number, needs ≤ number ∧ exchange.FileHolds number := by
  have run : Run (start (.ofBag ⟨"/d.json"⟩ .empty true) ⟨[], []⟩) _ _ :=
    .cons (.save 300 rfl) <| .cons (.take 0 rfl rfl) <| .cons (.expire rfl rfl) <|
    .cons (.begin_first rfl rfl rfl) <| .cons (.set "a" .null rfl) <| .cons (.flush rfl) <|
    .cons (.read rfl) <| .cons (.finish Disk.noTrouble rfl) <| .cons (.take 1 rfl rfl) <|
    .cons (.pass_first rfl rfl rfl) <| .cons (.answer rfl) <| .cons (.pass_first rfl rfl rfl) <|
    .cons (.set "b" .null rfl) <| .cons (.save 300 rfl) <| .cons (.take 2 rfl rfl) <|
    .cons (.drop rfl rfl nofun nofun) <| .cons (.begin_first rfl rfl rfl) <| .cons (.read rfl) <|
    .cons (.finish Disk.noTrouble rfl) <| .nil _
  exact ⟨_, run, rfl, rfl, (saves_written_once run rfl).2.2.2.2⟩

structure Forgets (exchange later : Exchange) : Prop where
  isMissed : later.isMissed = true
  isPending : later.document.isPending = false
  disk : later.disk = exchange.disk
  filed : later.filed = exchange.filed
  answers : ∀ answer ∈ later.answers, answer ∈ exchange.answers ∨ answer.result = .ok ()

theorem Forgets.trans {later : Exchange} (first : exchange.Forgets later)
    (second : later.Forgets last) : exchange.Forgets last where
  isMissed := second.isMissed
  isPending := second.isPending
  disk := second.disk.trans first.disk
  filed := second.filed.trans first.filed
  answers := by
    intro answer given
    rcases second.answers answer given with before | ok
    · exact first.answers answer before
    · exact .inr ok

theorem forgets_step (tracked : exchange.Tracked) (missed : exchange.isMissed = true)
    (step : Step exchange move next) (notSave : ∀ delay, move ≠ .save delay) :
    exchange.Forgets next := by
  obtain ⟨clean, free, -⟩ := tracked.missed missed
  have stillClean := clean_step clean step notSave
  have answers : ∀ answer ∈ next.answers, answer ∈ exchange.answers ∨ answer.result = .ok () := by
    intro answer given
    rcases answer_cases step given with before | ⟨-, -, -, ok, -⟩ | ⟨number, bag, held, -⟩
    · exact .inl before
    · exact .inr ok
    · rw [free] at held
      cases held
  cases effect_of_step step with
  | change => exact ⟨missed, stillClean, rfl, rfl, answers⟩
  | order unmoved =>
      exact ⟨unmoved.isMissed.trans missed, stillClean, unmoved.disk, unmoved.filed, answers⟩
  | save unmoved =>
      have pending : next.document.isPending = true := unmoved.isPending
      rw [stillClean] at pending
      cases pending
  | enter _ pending =>
      rw [clean] at pending
      cases pending
  | look begun | finish _ begun =>
      rw [free] at begun
      cases begun

theorem forgets_run (orderly : exchange.Orderly) (missed : exchange.isMissed = true)
    (run : Run exchange moves last) (noSave : ∀ delay, .save delay ∉ moves) :
    exchange.Forgets last := by
  induction run with
  | nil exchange =>
      exact ⟨missed, (orderly.tracked.missed missed).1, rfl, rfl, fun _ given => .inl given⟩
  | @cons first second last move moves step _ ih =>
      have notSave : ∀ delay, move ≠ .save delay := by
        rintro delay rfl
        exact noSave delay List.mem_cons_self
      have now := forgets_step orderly.tracked missed step notSave
      exact now.trans (ih (orderly_step orderly step) now.isMissed fun delay there =>
        noSave delay (List.mem_cons_of_mem _ there))

def Fails (exchange : Exchange) (trouble : Disk.Trouble) : Prop :=
  ∃ party number bag, exchange.lock = some ⟨party, some (number, bag)⟩ ∧
    (exchange.disk.replaceCourse trouble exchange.document.path
      (Document.contents bag)).result.isOk = false

/-- A write fails, and nothing is saved from its beginning on. -/
def Misses (first : Exchange) (moves : List Move) (last : Exchange) : Prop :=
  ∃ before trouble after here next, moves = before ++ .finish trouble :: after ∧
    Run first before here ∧ Step here (.finish trouble) next ∧ Run next after last ∧
    here.Fails trouble ∧ here.document.isPending = false ∧ ∀ delay, .save delay ∉ after

theorem misses_cons {first : Exchange} (step : Step first move next)
    (misses : next.Misses moves last) : first.Misses (move :: moves) last := by
  obtain ⟨before, trouble, after, here, ended, rfl, run, finish, rest⟩ := misses
  exact ⟨move :: before, trouble, after, here, ended, rfl, .cons step run, finish, rest⟩

theorem finish_isMissed (exchange : Exchange) (party : Party) (number : Nat) (bag : Bag)
    (trouble : Disk.Trouble) : (exchange.finish party number bag trouble).isMissed =
      if (exchange.disk.replaceCourse trouble exchange.document.path
        (Document.contents bag)).result.isOk then exchange.isMissed
      else !exchange.document.isPending := by
  unfold finish
  rw [(unmoved_release _ _ _).isMissed, settle_eq]

theorem missed_of_step (step : Step exchange move next) (missed : next.isMissed = true) :
    (exchange.isMissed = true ∧ ∀ delay, move ≠ .save delay) ∨
      ∃ trouble, move = .finish trouble ∧ exchange.Fails trouble ∧
        exchange.document.isPending = false := by
  cases step with
  | set | remove | drop | expire | answer | begin | read => exact .inl ⟨missed, nofun⟩
  | save delay _ =>
      rw [(exchange.unmoved_save delay).isMissed] at missed
      cases missed
  | flush _ => exact .inl ⟨exchange.unmoved_flush.isMissed ▸ missed, nofun⟩
  | @take request rest deadline now idle first => cases request <;> exact .inl ⟨missed, nofun⟩
  | @stop deadline _ _ _ => cases deadline <;> exact .inl ⟨missed, nofun⟩
  | pass =>
      rw [(unmoved_release _ _ _).isMissed] at missed
      exact .inl ⟨missed, nofun⟩
  | @finish party number bag trouble begun =>
      rw [finish_isMissed] at missed
      split at missed
      · exact .inl ⟨missed, nofun⟩
      · rename_i failed
        refine .inr ⟨trouble, rfl, ⟨party, number, bag, begun, Bool.eq_false_iff.mpr failed⟩, ?_⟩
        simpa using missed

theorem misses_of_missed (run : Run exchange moves last) (missed : last.isMissed = true) :
    (exchange.isMissed = true ∧ ∀ delay, .save delay ∉ moves) ∨ exchange.Misses moves last := by
  induction run with
  | nil => exact .inl ⟨missed, nofun⟩
  | @cons first second last move moves step rest ih =>
      rcases ih missed with ⟨already, noSave⟩ | misses
      · rcases missed_of_step step already with ⟨before, notSave⟩ | ⟨trouble, rfl, fails, clean⟩
        · refine .inl ⟨before, ?_⟩
          intro delay there
          rcases List.mem_cons.mp there with now | later
          · exact notSave delay now.symm
          · exact noSave delay later
        · exact .inr ⟨[], trouble, moves, first, second, rfl, .nil first, step, rest, fails, clean,
            noSave⟩
      · exact .inr (misses_cons step misses)

theorem missed_of_misses (orderly : exchange.Orderly) (misses : exchange.Misses moves last) :
    last.isMissed = true := by
  obtain ⟨before, trouble, after, here, ended, -, run, step, rest, fails, clean, noSave⟩ := misses
  have ready := orderly_run orderly run
  have missed : ended.isMissed = true := by
    obtain ⟨party, number, bag, held, failed⟩ := fails
    cases step with
    | finish _ begun =>
        rw [held] at begun
        cases begun
        rw [finish_isMissed, failed, clean]
        rfl
  exact (forgets_run (orderly_step ready step) missed rest noSave).isMissed

/-- What was saved is either written or still attended to, unless a write that began after the last
save has failed. Such a save is forgotten: until the next one nothing is written, and no call tells of
the failure. -/
theorem saves_written_unless_missed {path : Path} {bag : Bag} {hasWriter : Bool} {disk : Disk}
    (run : Run (start (.ofBag path bag hasWriter) disk) moves exchange) :
    (∀ saved ∈ exchange.saved, ¬exchange.HasFiled saved →
      (exchange.document.isPending = true ∨ exchange.lock ≠ none ↔ exchange.isMissed = false)) ∧
    (exchange.isMissed = true ↔ (start (.ofBag path bag hasWriter) disk).Misses moves exchange) ∧
    (∀ number, exchange.HasFiled number →
      ∃ later, number ≤ later ∧ exchange.FileHolds later) ∧
    (∀ answer ∈ exchange.answers, answer.result = .ok () → answer.wasMissed = false →
      ∀ needs ∈ answer.call.needs, ∃ later, needs ≤ later ∧ exchange.FileHolds later) ∧
    (exchange.isMissed = true → ∀ more last, Run exchange more last →
      (∀ delay, .save delay ∉ more) → exchange.Forgets last) := by
  have orderly := orderly_run (orderly_start path bag hasWriter disk) run
  have written : ∀ number, exchange.HasFiled number →
      ∃ later, number ≤ later ∧ exchange.FileHolds later := by
    rintro number ⟨filed, there, newer⟩
    exact ⟨filed, newer, orderly.tracked.file filed there⟩
  refine ⟨?_, ⟨?_, ?_⟩, written, ?_, ?_⟩
  · intro saved there unwritten
    constructor
    · intro attended
      apply Bool.eq_false_iff.mpr
      intro missed
      obtain ⟨clean, free, -⟩ := orderly.tracked.missed missed
      rcases attended with pending | held
      · rw [clean] at pending
        cases pending
      · exact held free
    · intro notMissed
      rcases orderly.tracked.covered saved there with filed | pending | missed | ⟨write, held, -⟩
      · exact absurd filed unwritten
      · exact .inl pending
      · rw [notMissed] at missed
        cases missed
      · refine .inr fun free => ?_
        rw [free] at held
        cases held
  · intro missed
    exact (misses_of_missed run missed).resolve_left fun already => nomatch already.1
  · exact missed_of_misses (orderly_start path bag hasWriter disk)
  · intro answer given ok notMissed needs there
    exact written needs (orderly.answerable.answers answer given ok notMissed needs there)
  · intro missed more last later noSave
    exact forgets_run orderly missed later noSave

/-- A full disk keeps the deferred write from being made; the flush after it writes nothing. -/
theorem failed_save_forgotten : ∃ missed,
    Run (start (.ofBag ⟨"/d.json"⟩ .empty true) ⟨[], []⟩)
      [.save 300, .take 0, .expire, .begin .task, .read,
        .finish fun step => if step = .fill then some (.other "StorageFull") else none] missed ∧
    missed.saved = some 0 ∧ missed.isMissed = true ∧ ∃ last,
      Run missed [.flush, .take 1, .pass .task, .answer, .pass (.call ⟨.flush, some 0⟩)] last ∧
      last.answers.map Answer.result = [.ok ()] ∧ missed.Forgets last ∧
      last.disk.contents? ⟨"/d.json"⟩ = .ok none := by
  have run : Run (start (.ofBag ⟨"/d.json"⟩ .empty true) ⟨[], []⟩) _ _ :=
    .cons (.save 300 rfl) <| .cons (.take 0 rfl rfl) <| .cons (.expire rfl rfl) <|
    .cons (.begin_first rfl rfl rfl) <| .cons (.read rfl) <|
    .cons (.finish (fun step => if step = .fill then some (.other "StorageFull") else none) rfl) <|
    .nil _
  have noSave : ∀ delay, Move.save delay ∉
      [.flush, .take 1, .pass .task, .answer, .pass (.call ⟨.flush, some 0⟩)] := by
    intro delay
    simp
  refine ⟨_, run, rfl, rfl, _, .cons (.flush rfl) <| .cons (.take 1 rfl rfl) <|
    .cons (.pass_first rfl rfl rfl) <| .cons (.answer rfl) <|
    .cons (.pass_first rfl rfl rfl) <| .nil _, rfl, ?_, rfl⟩
  apply (saves_written_unless_missed run).2.2.2.2 rfl _ _ _ noSave
  exact .cons (.flush rfl) <| .cons (.take 1 rfl rfl) <| .cons (.pass_first rfl rfl rfl) <|
    .cons (.answer rfl) <| .cons (.pass_first rfl rfl rfl) <| .nil _

end Waymark.Exchange
