import Waymark.Proofs.Document.Announced
/-!
# Who follows a document

A follower has a copy of the bag and reads a value again whenever its name is announced. Whatever is
out of date in the copy is announced, so once all announcements are received the copy is up to date,
as long as none was lost.
-/

namespace Waymark

/-- A copy of the bag of a document, whose announcements wait to be received. -/
structure Follower where
  document : Document
  mirror : Bag

namespace Follower

inductive Event where
  | change (change : Document.Change)
  | receive

def start (document : Document) : Follower :=
  ⟨{ document with notices := .empty }, document.bag⟩

def receive (follower : Follower) : Follower :=
  match follower.document.notices.messages with
  | [] => follower
  | name :: rest =>
      { document := { follower.document with notices := ⟨follower.document.notices.lost, rest⟩ }
        mirror := follower.mirror.refresh follower.document.bag name }

def act (follower : Follower) : Event → Follower
  | .change change => { follower with document := follower.document.change change }
  | .receive => follower.receive

def run (follower : Follower) (events : List Event) : Follower :=
  events.foldl act follower

def drain (follower : Follower) : Follower :=
  follower.run (List.replicate follower.document.notices.messages.length .receive)

variable {follower : Follower}

theorem receive_document (follower : Follower) : follower.receive.document =
    { follower.document with
      notices := ⟨follower.document.notices.lost, follower.document.notices.messages.drop 1⟩ } := by
  unfold receive
  split
  · rename_i none
    rw [none, List.drop_nil, ← none]
  · rename_i name rest some
    rw [some]
    rfl

theorem run_receive (follower : Follower) (count : Nat) :
    (follower.run (List.replicate count .receive)).document =
      { follower.document with
        notices :=
          ⟨follower.document.notices.lost, follower.document.notices.messages.drop count⟩ } := by
  induction count generalizing follower with
  | zero => rfl
  | succ count ih =>
      refine (ih follower.receive).trans ?_
      rw [receive_document, List.drop_drop, Nat.add_comm]

theorem lost_le_act (follower : Follower) (event : Event) :
    follower.document.notices.lost ≤ (follower.act event).document.notices.lost := by
  cases event with
  | change change =>
      obtain ⟨names, posted, -⟩ := follower.document.announces_change change
      exact Nat.le_trans (Mailbox.lost_le_postAll _ names) (Nat.le_of_eq (congrArg _ posted.symm))
  | receive => exact Nat.le_of_eq (congrArg (·.notices.lost) (receive_document follower)).symm

theorem lost_le_run (follower : Follower) (events : List Event) :
    follower.document.notices.lost ≤ (follower.run events).document.notices.lost := by
  induction events generalizing follower with
  | nil => exact Nat.le_refl _
  | cons event rest ih => exact Nat.le_trans (follower.lost_le_act event) (ih _)

def Informed (follower : Follower) : Prop :=
  ∀ name, (∃ told ∈ follower.document.notices.messages, Text.lower told = Text.lower name) ∨
    follower.mirror.AgreeOn follower.document.bag name

theorem informed_start (document : Document) : (start document).Informed :=
  fun _ => .inr (Bag.agreeOn_of_eq rfl)

theorem Informed.change (informed : follower.Informed) (change : Document.Change)
    (inTime : (follower.act (.change change)).document.notices.lost = 0) :
    (follower.act (.change change)).Informed := by
  intro name
  obtain ⟨names, posted, tells⟩ := follower.document.announces_change change
  have messages : (follower.document.change change).notices.messages =
      follower.document.notices.messages ++ names := by
    rw [posted]
    exact Mailbox.messages_postAll (posted ▸ inTime)
  change (∃ told ∈ (follower.document.change change).notices.messages, _) ∨ _
  simp only [messages, List.mem_append, or_and_right, exists_or, tells name]
  -- A name that still has its value is as it was before, and any other one is among the new names.
  by_cases same : follower.document.bag.AgreeOn (follower.document.change change).bag name
  · exact (informed name).imp .inl fun agree => agree.trans same
  · exact .inl (.inr same)

theorem Informed.receive (informed : follower.Informed) : follower.receive.Informed := by
  unfold Follower.receive
  split
  · exact informed
  · rename_i first rest queue
    intro name
    by_cases same : Text.lower first = Text.lower name
    · exact .inr ((Bag.agreeOn_congr same).mp (Bag.agreeOn_refresh _ _ first))
    · have other : Text.lower name ≠ Text.lower first := fun equal => same equal.symm
      simp only [Bag.AgreeOn, Bag.value?_refresh_of_ne other]
      refine (informed name).imp_left ?_
      rintro ⟨told, inside, equal⟩
      rcases List.mem_cons.mp (queue ▸ inside) with rfl | later
      · exact absurd equal same
      · exact ⟨told, later, equal⟩

theorem Informed.act (informed : follower.Informed) (event : Event)
    (inTime : (follower.act event).document.notices.lost = 0) : (follower.act event).Informed := by
  cases event with
  | change change => exact informed.change change inTime
  | receive => exact informed.receive

theorem Informed.run (informed : follower.Informed) (events : List Event)
    (inTime : (follower.run events).document.notices.lost = 0) : (follower.run events).Informed := by
  induction events generalizing follower with
  | nil => exact informed
  | cons event rest ih =>
      have early : (follower.act event).document.notices.lost = 0 :=
        Nat.le_zero.mp (inTime ▸ lost_le_run (follower.act event) rest)
      exact ih (informed.act event early) inTime

theorem drain_document (follower : Follower) : follower.drain.document =
    { follower.document with notices := ⟨follower.document.notices.lost, []⟩ } := by
  rw [drain, run_receive, List.drop_length]

theorem Informed.drain (informed : follower.Informed)
    (inTime : follower.document.notices.lost = 0) (name : String) :
    follower.drain.mirror.AgreeOn follower.document.bag name := by
  have still : follower.drain.Informed := informed.run _ (by rwa [← Follower.drain, drain_document])
  rcases still name with ⟨told, inside, -⟩ | agree
  · rw [drain_document] at inside
    cases inside
  · rwa [drain_document] at agree

/-- As long as nothing is lost, the copy of a follower is up to date wherever nothing is announced,
and everywhere once all announcements are received, but for the signs of zeros. Each change announces
exactly what it changes. -/
theorem drained_agrees (document : Document) (events : List Event) :
    let follower := (start document).run events
    (follower.document.notices.lost = 0 →
      (∀ name,
        (∀ told ∈ follower.document.notices.messages, Text.lower told ≠ Text.lower name) →
          follower.mirror.AgreeOn follower.document.bag name) ∧
      follower.drain.document = { follower.document with notices := .empty } ∧
      ∀ name, follower.drain.mirror.AgreeOn follower.document.bag name ∧
        (follower.drain.mirror.value? name).map Json.plain =
          (follower.document.bag.value? name).map Json.plain ∧
        ∀ value, follower.document.bag.value? name = some value → value.NoDoubles →
          follower.drain.mirror.value? name = some value) ∧
    ∀ change,
      (∃ names, follower.document.Announces (follower.document.change change) names) ∧
      ((∀ name, follower.document.bag.AgreeOn (follower.document.change change).bag name) →
        (follower.document.change change).notices = follower.document.notices) := by
  intro follower
  refine ⟨fun inTime => ?_, fun change => ?_⟩
  · have informed : follower.Informed := (informed_start document).run events inTime
    refine ⟨fun name quiet => ?_, ?_, fun name =>
      ⟨informed.drain inTime name, (informed.drain inTime name).plain, ?_⟩⟩
    · exact (informed name).resolve_left fun ⟨told, inside, same⟩ => quiet told inside same
    · rw [drain_document, inTime]
      rfl
    · exact fun value found whole => (informed.drain inTime name).value?_eq found whole
  · obtain ⟨names, announces⟩ := follower.document.announces_change change
    refine ⟨⟨names, announces⟩, fun agree => ?_⟩
    rw [announces.notices, announces.tells.eq_nil agree]
    rfl

def editedBag : Bag :=
  (Bag.empty.set "THEME" (.string "dark")).1

def editedDisk : Disk :=
  ⟨[(["s.json"], .file (Document.contents editedBag))], []⟩

theorem read_editedDisk : Document.read editedDisk ⟨"/s.json"⟩ = .ok (some editedBag) := by
  have held : editedBag.Held := Bag.held_empty.set _ ⟨trivial, trivial, Nat.zero_le _⟩
  have whole : editedBag.NoDoubles := Bag.noDoubles_empty.set _ trivial
  have written : (⟨[], []⟩ : Disk).replace ⟨"/s.json"⟩ (Document.contents editedBag) =
      (editedDisk, .ok ()) := rfl
  rw [Document.read_replaced written, Document.ofBytes_contents held whole]

def editEvents : List Event :=
  [.change (.set "theme" (.string "light")), .receive, .change (.set "size" (.integer 1)),
    .change (.reload editedDisk)]

def editedFollower : Follower :=
  (start (.ofBag ⟨"/s.json"⟩ .empty true)).run editEvents

theorem document_editedFollower :
    editedFollower.document.bag = editedBag ∧
      editedFollower.document.notices = ⟨0, ["size", "size", "THEME"]⟩ := by
  let before := (start (.ofBag ⟨"/s.json"⟩ .empty true)).run (editEvents.take 3)
  have same : editedFollower.document =
      Document.announce { before.document with bag := editedBag }
        (before.document.bag.changes editedBag) :=
    Document.reload_of_read rfl read_editedDisk
  rw [same]
  exact ⟨rfl, by decide +kernel⟩

/-- The copy is out of date until the rest is received. Setting what is there already announces
nothing. -/
theorem drained_editedFollower :
    editedFollower.document.notices.lost = 0 ∧
      editedFollower.mirror.value? "theme" = some (.string "light") ∧
      (∀ name, editedFollower.drain.mirror.AgreeOn editedBag name) ∧
      editedFollower.drain.mirror.value? "theme" = some (.string "dark") ∧
      (editedFollower.document.change (.set "Theme" (.string "dark"))).notices =
        editedFollower.document.notices := by
  obtain ⟨bag, notices⟩ := document_editedFollower
  have inTime : editedFollower.document.notices.lost = 0 := by rw [notices]
  obtain ⟨drained, changes⟩ := drained_agrees (.ofBag ⟨"/s.json"⟩ .empty true) editEvents
  obtain ⟨-, -, agrees⟩ := drained inTime
  have unchanged : (editedFollower.document.change (.set "Theme" (.string "dark"))).bag =
      editedFollower.document.bag := by
    refine (Document.set_bag _ _ _).1.trans ?_
    rw [bag]
    rfl
  refine ⟨inTime, rfl, fun name => bag ▸ (agrees name).1, ?_, ?_⟩
  · exact (agrees "theme").2.2 (.string "dark") (bag ▸ rfl) trivial
  · exact (changes (.set "Theme" (.string "dark"))).2 fun name =>
      Bag.agreeOn_of_eq (congrArg (·.value? name) unchanged.symm)

def zero (negative : Bool) : Bag :=
  (Bag.empty.set "a" (.number (.double (.zero negative)))).1

def zeroDisk : Disk :=
  ⟨[(["s.json"], .file (Document.contents (zero true)))], []⟩

theorem read_zeroDisk : Document.read zeroDisk ⟨"/s.json"⟩ = .ok (some (zero true)) := by
  have held : (zero true).Held := Bag.held_empty.set _ ⟨trivial, trivial, Nat.zero_le _⟩
  have again : (zero true).reread = zero true :=
    Bag.ext (congrArg (fun number => [Property.mk "a" (.number number)]) (Number.reread_zero true))
  have read : Document.read zeroDisk ⟨"/s.json"⟩ = .ok (some (zero true).reread) :=
    Document.read_of_written held rfl
  rwa [again] at read

/-- A zero in the file is taken over for the other one, and that is not announced. -/
theorem not_drained_equal : ¬∀ (document : Document) (events : List Event),
    let follower := (start document).run events
    follower.document.notices.lost = 0 →
      ∀ name, follower.drain.mirror.value? name = follower.document.bag.value? name := by
  intro drained
  let settings : Document := .ofBag ⟨"/s.json"⟩ (zero false) false
  let last := (start settings).run [.change (.reload zeroDisk)]
  have quiet : (zero false).changes (zero true) = [] := by decide +kernel
  have taken : last.document = { settings with bag := zero true }.announce [] :=
    quiet ▸ Document.reload_of_read rfl read_zeroDisk
  have nothing : last.drain = last := by
    rw [drain, taken]
    rfl
  have equal : last.drain.mirror.value? "a" = last.document.bag.value? "a" :=
    drained settings [.change (.reload zeroDisk)] (congrArg (·.notices.lost) taken) "a"
  rw [nothing, taken] at equal
  have signs : Double.zero false = Double.zero true := by
    have values : some (Json.number (.double (.zero false))) = some (.number (.double (.zero true))) :=
      equal
    simpa using values
  cases signs

end Follower
end Waymark
