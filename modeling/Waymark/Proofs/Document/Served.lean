import Waymark.Proofs.Document.Accepted
import Waymark.Proofs.Document.Durable
/-!
# Documents used in turn

When every call is done before the next one, and the writer works while time passes, the definitions
of a document say what happens: each of them is a few steps of the document in use.
-/

namespace Waymark.Exchange

variable {exchange next last : Exchange} {move : Move} {moves : List Move}

def IsWork : Move → Prop
  | .set .. | .remove _ | .save _ | .flush | .drop => False
  | _ => True

def Works (exchange next : Exchange) : Prop :=
  ∃ moves, Run exchange moves next ∧ ∀ move ∈ moves, IsWork move

theorem works_refl (exchange : Exchange) : exchange.Works exchange :=
  ⟨[], .nil exchange, nofun⟩

theorem Works.cons (step : Step exchange move next) (work : IsWork move) (works : next.Works last) :
    exchange.Works last := by
  obtain ⟨moves, run, others⟩ := works
  exact ⟨move :: moves, .cons step run, List.forall_mem_cons.mpr ⟨work, others⟩⟩

theorem works_of_step (step : Step exchange move next) (work : IsWork move) : exchange.Works next :=
  (works_refl next).cons step work

theorem Works.trans (works : exchange.Works next) (more : next.Works last) : exchange.Works last := by
  obtain ⟨moves, run, first⟩ := works
  induction run with
  | nil => exact more
  | cons step _ ih =>
      obtain ⟨work, others⟩ := List.forall_mem_cons.mp first
      exact (ih more others).cons step work

def turn (exchange : Exchange) (party : Party) (others : List Party) : Exchange :=
  if exchange.document.isPending then
    ((exchange.enter party others).look party).finish party exchange.number exchange.document.bag
      Disk.noTrouble
  else { exchange with waiting := others }.release party (.ok ())

theorem works_turn {party : Party} {others : List Party} (free : exchange.lock = none)
    (first : exchange.waiting = party :: others) : exchange.Works (exchange.turn party others) := by
  by_cases pending : exchange.document.isPending = true
  · rw [turn, if_pos pending]
    exact ((works_of_step (.finish Disk.noTrouble rfl) trivial).cons (.read rfl) trivial).cons
      (.begin_first free pending first) trivial
  · rw [turn, if_neg pending]
    exact works_of_step (.pass_first free (Bool.eq_false_iff.mpr pending) first) trivial

@[simp] theorem turn_document (exchange : Exchange) (party : Party) (others : List Party) :
    (exchange.turn party others).document =
      (exchange.document.writePending exchange.disk).1 := by
  unfold turn Document.writePending
  split
  · simp only [finish, release_document, settle_eq]
    rfl
  · rw [release_document]

@[simp] theorem turn_disk (exchange : Exchange) (party : Party) (others : List Party) :
    (exchange.turn party others).disk = (exchange.document.writePending exchange.disk).2.1 := by
  unfold turn Document.writePending
  split
  · simp only [finish, release_disk, settle_eq]
    rfl
  · rw [release_disk]

@[simp] theorem turn_isOpen (exchange : Exchange) (party : Party) (others : List Party) :
    (exchange.turn party others).isOpen = exchange.isOpen := by
  unfold turn
  split <;> cases party <;> simp [finish, release, settle_eq, look, enter]

@[simp] theorem turn_waiting (exchange : Exchange) (party : Party) (others : List Party) :
    (exchange.turn party others).waiting = others := by
  unfold turn
  split <;> simp [finish, settle_eq, look, enter]

@[simp] theorem turn_asked (exchange : Exchange) (party : Party) (others : List Party) :
    (exchange.turn party others).asked = exchange.asked := by
  unfold turn
  split <;> cases party <;> simp [finish, release, settle_eq, look, enter]

theorem turn_lock (free : exchange.lock = none) (party : Party) (others : List Party) :
    (exchange.turn party others).lock = none := by
  unfold turn
  split
  · rw [finish, (unmoved_release _ _ _).lock, settle_eq]
  · rw [(unmoved_release _ _ _).lock, free]

@[simp] theorem turn_task (exchange : Exchange) (others : List Party) :
    (exchange.turn .task others).task = exchange.task.afterWrite := by
  unfold turn
  split <;> simp [finish, release, settle_eq, look, enter]

@[simp] theorem turn_call (exchange : Exchange) (call : Call) (others : List Party) :
    (exchange.turn (.call call) others).task = exchange.task := by
  unfold turn
  split <;> simp [finish, release, settle_eq, look, enter]

@[simp] theorem turn_task_answers (exchange : Exchange) (others : List Party) :
    (exchange.turn .task others).answers = exchange.answers := by
  unfold turn
  split <;> simp [finish, release, settle_eq, look, enter]

theorem turn_answers (exchange : Exchange) (call : Call) (others : List Party) :
    ∃ wasMissed, (exchange.turn (.call call) others).answers =
      ⟨call, (exchange.document.writePending exchange.disk).2.2, wasMissed⟩ :: exchange.answers := by
  unfold turn Document.writePending
  split
  · simp only [finish, release, settle_eq]
    exact ⟨_, rfl⟩
  · exact ⟨_, rfl⟩

theorem turn_unfailed {party : Party} {others : List Party}
    (accepts : exchange.disk.Accepts exchange.document.path)
    (unfailed : exchange.hasFailed = false) : (exchange.turn party others).hasFailed = false := by
  unfold turn
  split
  · have ok : (exchange.disk.replaceCourse Disk.noTrouble exchange.document.path
        (Document.contents exchange.document.bag)).result = .ok () := accepts.replace _
    rw [finish, (unmoved_release _ _ _).hasFailed, settle_eq]
    simp only [look, enter, Document.beginWrite, ok, unfailed]
    rfl
  · rw [(unmoved_release _ _ _).hasFailed, unfailed]

/-- Only calls in line go on, and nothing fails; the task waits and has been asked for nothing but
deadlines. -/
structure AtRest (exchange : Exchange) (line : List Party) : Prop where
  isOpen : exchange.isOpen = true
  idle : exchange.task = .idle
  waiting : exchange.waiting = line
  asked : exchange.asked = []
  free : exchange.lock = none
  scheduled : ∀ writer ∈ exchange.document.writer, .flush ∉ writer.queue
  accepts : exchange.disk.Accepts exchange.document.path
  unfailed : exchange.hasFailed = false

theorem atRest_start {path : Path} {disk : Disk} (accepts : disk.Accepts path) (bag : Bag)
    (hasWriter : Bool) : (start (.ofBag path bag hasWriter) disk).AtRest [] := by
  refine ⟨rfl, rfl, rfl, rfl, rfl, ?_, accepts, rfl⟩
  intro writer there
  cases hasWriter <;> cases there
  exact nofun

def withWriter (exchange : Exchange) (writer : Writer) : Exchange :=
  { exchange with document := { exchange.document with writer := some writer } }

theorem writer_writePending (document : Document) (disk : Disk) :
    (document.writePending disk).1.writer = document.writer := by
  unfold Document.writePending
  split
  · exact (document.beginWrite.endWrite_eq _).2.1
  · rfl

theorem atRest_turn {party : Party} (isOpen : exchange.isOpen = true)
    (idle : (exchange.turn party []).task = .idle) (asked : exchange.asked = [])
    (free : exchange.lock = none)
    (scheduled : ∀ writer ∈ exchange.document.writer, .flush ∉ writer.queue)
    (accepts : exchange.disk.Accepts exchange.document.path)
    (unfailed : exchange.hasFailed = false) : (exchange.turn party []).AtRest [] where
  isOpen := by rw [turn_isOpen, isOpen]
  idle := idle
  waiting := turn_waiting exchange party []
  asked := by rw [turn_asked, asked]
  free := turn_lock free party []
  scheduled := by
    rw [turn_document, writer_writePending]
    exact scheduled
  accepts := by
    rw [turn_document, turn_disk]
    exact Document.accepts_writePending accepts
  unfailed := turn_unfailed accepts unfailed

theorem works_schedules (now : Nat) (disk : Disk) {queue : List Request}
    (schedules : .flush ∉ queue) (rest : List Request) (deadline : Option Nat)
    (idle : exchange.task = .idle) : ∃ later,
      (exchange.withWriter ⟨queue ++ rest, deadline⟩).Works (exchange.withWriter ⟨rest, later⟩) ∧
      queue.foldl (fun (document, disk) request => document.serve disk now request)
          ({ exchange.document with writer := some ⟨[], deadline⟩ }, disk) =
        ({ exchange.document with writer := some ⟨[], later⟩ }, disk) := by
  induction queue generalizing deadline with
  | nil => exact ⟨deadline, works_refl _, rfl⟩
  | cons request queue ih =>
      have notThis : request ≠ .flush := fun same => schedules (same ▸ List.mem_cons_self)
      have others : .flush ∉ queue := fun there => schedules (List.mem_cons_of_mem _ there)
      cases request with
      | flush => exact absurd rfl notThis
      | schedule delay =>
          obtain ⟨later, works, served⟩ := ih others (some (now + delay))
          exact ⟨later, works.cons (.take now idle rfl) trivial, served⟩

theorem works_serveAll (rest : exchange.AtRest []) (now : Nat) : ∃ next,
    exchange.Works next ∧ next.AtRest [] ∧
      (next.document, next.disk) = exchange.document.serveAll exchange.disk now := by
  cases held : exchange.document.writer with
  | none => exact ⟨exchange, works_refl exchange, rest, by rw [Document.serveAll, held]⟩
  | some writer =>
      obtain ⟨queue, deadline⟩ := writer
      have same : exchange.withWriter ⟨queue ++ [], deadline⟩ = exchange := by
        rw [List.append_nil, withWriter, ← held]
      obtain ⟨later, works, served⟩ :=
        works_schedules now exchange.disk (rest.scheduled _ held) [] deadline rest.idle
      rw [same] at works
      refine ⟨_, works, ⟨rest.isOpen, rest.idle, rest.waiting, rest.asked, rest.free, ?_, rest.accepts,
        rest.unfailed⟩, ?_⟩
      · rintro writer ⟨⟩
        exact List.not_mem_nil
      · simp only [Document.serveAll, held]
        exact served.symm

theorem works_expire (rest : exchange.AtRest []) (later : Nat) : ∃ next,
    exchange.Works next ∧ next.AtRest [] ∧
      (next.document, next.disk) = exchange.document.expire exchange.disk later := by
  unfold Document.expire
  split
  · rename_i queue deadline held
    split
    · let fired := exchange.fire .idle
      have waits : fired.waiting = [.task] := by simp [fired, fire, want, rest.waiting]
      have free : fired.lock = none := rest.free
      have scheduled : ∀ writer ∈ fired.document.writer, .flush ∉ writer.queue := by
        simp only [fired, fire, want, Document.withDeadline, held]
        rintro writer ⟨⟩
        exact rest.scheduled ⟨queue, some deadline⟩ held
      have idle : (fired.turn .task []).task = .idle := turn_task fired []
      refine ⟨_, (works_turn free waits).cons (.expire rest.idle held) trivial,
        atRest_turn rest.isOpen idle rest.asked free scheduled rest.accepts rest.unfailed, ?_⟩
      rw [turn_document, turn_disk]
      rfl
    · exact ⟨exchange, works_refl exchange, rest, rfl⟩
  · exact ⟨exchange, works_refl exchange, rest, rfl⟩

theorem works_wait (rest : exchange.AtRest []) (now later : Nat) : ∃ next,
    exchange.Works next ∧ next.AtRest [] ∧
      (next.document, next.disk) = exchange.document.wait exchange.disk now later := by
  obtain ⟨middle, works, middleRest, served⟩ := works_serveAll rest now
  obtain ⟨next, more, nextRest, expired⟩ := works_expire middleRest later
  refine ⟨next, works.trans more, nextRest, ?_⟩
  rw [expired, Document.wait, ← served]

theorem works_call {call : Call} (rest : exchange.AtRest [.call call]) : ∃ next wasMissed,
    exchange.Works next ∧ next.AtRest [] ∧
      next.document = (exchange.document.writePending exchange.disk).1 ∧
      next.disk = (exchange.document.writePending exchange.disk).2.1 ∧
      next.answers = ⟨call, (exchange.document.writePending exchange.disk).2.2, wasMissed⟩ ::
        exchange.answers := by
  obtain ⟨wasMissed, answers⟩ := turn_answers exchange call []
  have idle : (exchange.turn (.call call) []).task = .idle :=
    (turn_call exchange call []).trans rest.idle
  exact ⟨_, wasMissed, works_turn rest.free rest.waiting,
    atRest_turn rest.isOpen idle rest.asked rest.free rest.scheduled rest.accepts rest.unfailed,
    turn_document _ _ _, turn_disk _ _ _, answers⟩

theorem atRest_change (rest : exchange.AtRest []) {outcome : Document × Bool}
    (changes : exchange.document.Changes outcome) : (exchange.change outcome).AtRest [] where
  isOpen := rest.isOpen
  idle := rest.idle
  waiting := rest.waiting
  asked := rest.asked
  free := rest.free
  scheduled := by
    have same : (exchange.change outcome).document.writer = exchange.document.writer := changes.writer
    rw [same]
    exact rest.scheduled
  accepts := by
    have same : (exchange.change outcome).document.path = exchange.document.path := changes.path
    rw [same]
    exact rest.accepts
  unfailed := rest.unfailed

theorem scheduled_ask {document : Document} (delay : Nat)
    (scheduled : ∀ writer ∈ document.writer, .flush ∉ writer.queue) :
    ∀ writer ∈ (document.ask (.schedule delay)).writer, .flush ∉ writer.queue := by
  intro writer there asked
  cases held : document.writer with
  | none =>
      rw [Document.ask, held] at there
      rw [held] at there
      cases there
  | some before =>
      rw [Document.ask, held] at there
      cases there
      rcases List.mem_append.mp asked with old | new
      · exact scheduled before held old
      · cases List.mem_singleton.mp new

theorem works_save (rest : exchange.AtRest []) (delay : Nat) : ∃ next,
    (exchange.save delay).Works next ∧ next.AtRest [] ∧
      next.document = (exchange.document.save exchange.disk delay).1 ∧
      next.disk = (exchange.document.save exchange.disk delay).2.1 := by
  unfold save Document.save
  dsimp only
  by_cases now : (delay = 0 || exchange.document.writer.isNone) = true
  · rw [if_pos now, if_pos now]
    let call : Call := ⟨.save, some exchange.number⟩
    have waits : (exchange.mark.want (.call call)).AtRest [.call call] :=
      ⟨rest.isOpen, rest.idle, by simp [want, mark, rest.waiting], rest.asked, rest.free,
        rest.scheduled, rest.accepts, rest.unfailed⟩
    obtain ⟨next, -, works, nextRest, document, disk, -⟩ := works_call waits
    exact ⟨next, works, nextRest, document, disk⟩
  · rw [if_neg now, if_neg now]
    refine ⟨_, works_refl _, ?_, rfl, rfl⟩
    have unmoved := unmoved_ask exchange.mark (.schedule delay)
    refine ⟨rest.isOpen, rest.idle, rest.waiting, rest.asked, rest.free,
      scheduled_ask delay rest.scheduled, ?_, rest.unfailed⟩
    rw [unmoved.path, unmoved.disk]
    exact rest.accepts

theorem works_acknowledged (rest : exchange.AtRest []) {writer : Writer}
    (held : exchange.document.writer = some writer) (now : Nat) : ∃ next,
      exchange.flush.Works next ∧ next.AtRest [.call ⟨.flush, exchange.saved⟩] ∧
        next.answers = exchange.answers ∧
        (next.document, next.disk) =
          (exchange.document.ask .flush).serveAll exchange.disk now := by
  obtain ⟨queue, deadline⟩ := writer
  let call : Call := ⟨.flush, exchange.saved⟩
  let called : Exchange := { exchange with asked := [call] }
  -- The requests before the flush only move the deadline that it makes the task leave.
  have asks : exchange.flush = called.withWriter ⟨queue ++ [.flush], deadline⟩ := by
    simp [flush, held, ask, Document.ask, called, withWriter, rest.asked, call]
  have idle : called.task = .idle := rest.idle
  obtain ⟨later, works, served⟩ := works_schedules now exchange.disk
    (rest.scheduled _ held) [.flush] deadline idle
  let fired := (called.withWriter ⟨[], later⟩).fire .answering
  have takes : Step (called.withWriter ⟨[.flush], later⟩) (.take now) fired :=
    @Step.take (called.withWriter ⟨[.flush], later⟩) .flush [] later now idle rfl
  have waits : fired.waiting = [.task] := by
    simp [fired, fire, want, called, withWriter, rest.waiting]
  have free : fired.lock = none := rest.free
  have answering : (fired.turn .task []).task = .answering := turn_task fired []
  have acknowledged : fired.Works (fired.turn .task []).acknowledge :=
    (works_turn free waits).trans (works_of_step (.answer answering) trivial)
  have accepts : fired.disk.Accepts fired.document.path := rest.accepts
  rw [asks]
  refine ⟨_, works.trans (acknowledged.cons takes trivial),
    ⟨?_, rfl, ?_, ?_, turn_lock free .task [], ?_, ?_, turn_unfailed accepts rest.unfailed⟩,
    turn_task_answers fired [], ?_⟩
  · exact (turn_isOpen fired .task []).trans rest.isOpen
  · simp [acknowledge, fired, fire, want, called, withWriter, call]
  · simp [acknowledge, fired, fire, want, called, withWriter]
  · have writer : (fired.turn .task []).document.writer = fired.document.writer := by
      rw [turn_document, writer_writePending]
    intro left there
    have there : left ∈ fired.document.writer := writer ▸ there
    cases there
    exact List.not_mem_nil
  · change (fired.turn .task []).disk.Accepts (fired.turn .task []).document.path
    rw [turn_document, turn_disk]
    exact Document.accepts_writePending accepts
  · simp only [Document.serveAll, Document.ask, held, List.foldl_append, List.foldl_cons,
      List.foldl_nil]
    have before : queue.foldl (fun (document, disk) request => document.serve disk now request)
        ({ exchange.document with writer := some ⟨[], deadline⟩ }, exchange.disk) = _ := served
    rw [before, acknowledge, turn_document, turn_disk]
    rfl

theorem works_flush (rest : exchange.AtRest []) (now : Nat) : ∃ next wasMissed,
    exchange.flush.Works next ∧ next.AtRest [] ∧
      next.document = (exchange.document.flush exchange.disk now).1 ∧
      next.disk = (exchange.document.flush exchange.disk now).2.1 ∧
      next.answers = ⟨⟨.flush, exchange.saved⟩, (exchange.document.flush exchange.disk now).2.2,
        wasMissed⟩ :: exchange.answers := by
  cases held : exchange.document.writer with
  | none =>
      have waits : exchange.flush.AtRest [.call ⟨.flush, exchange.saved⟩] := by
        simp only [flush, held, Option.isNone_none, if_true]
        exact ⟨rest.isOpen, rest.idle, by simp [want, rest.waiting], rest.asked, rest.free,
          rest.scheduled, rest.accepts, rest.unfailed⟩
      obtain ⟨next, wasMissed, works, nextRest, outcome⟩ := works_call waits
      refine ⟨next, wasMissed, works, nextRest, ?_⟩
      simpa [Document.flush, Document.ask, Document.serveAll, held, flush, want] using outcome
  | some writer =>
      obtain ⟨middle, works, middleRest, answers, served⟩ := works_acknowledged rest held now
      obtain ⟨next, wasMissed, more, nextRest, outcome⟩ := works_call middleRest
      refine ⟨next, wasMissed, works.trans more, nextRest, ?_⟩
      rw [Document.flush, ← served, ← answers]
      exact outcome

theorem works_drop (rest : exchange.AtRest []) : ∃ next wasMissed,
    Step exchange .drop exchange.drop ∧ exchange.drop.Works next ∧ next.hasFailed = false ∧
      next.document = (exchange.document.writePending exchange.disk).1 ∧
      next.disk = exchange.document.close exchange.disk ∧
      next.answers = ⟨⟨.drop, exchange.saved⟩, (exchange.document.writePending exchange.disk).2.2,
        wasMissed⟩ :: exchange.answers := by
  have step : Step exchange .drop exchange.drop := by
    apply Step.drop rest.isOpen rest.asked
    · rw [rest.waiting]
      exact nofun
    · rw [rest.free]
      exact nofun
  have waits : exchange.drop.waiting = [.call ⟨.drop, exchange.saved⟩] := by
    simp [drop, want, rest.waiting]
  have free : exchange.drop.lock = none := rest.free
  obtain ⟨wasMissed, answers⟩ := turn_answers exchange.drop ⟨.drop, exchange.saved⟩ []
  exact ⟨_, wasMissed, step, works_turn free waits, turn_unfailed rest.accepts rest.unfailed,
    turn_document _ _ _, turn_disk _ _ _, answers⟩

end Waymark.Exchange
