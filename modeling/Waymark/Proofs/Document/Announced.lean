import Waymark.Proofs.Bag.Difference
import Waymark.Proofs.Document.Contents
/-!
# What a document announces

Setting, removing, copying and reading the file again each announce names in their own spelling. All
of them announce exactly the names whose values changed.
-/

namespace Waymark

namespace Mailbox

variable {α : Type} {mailbox : Mailbox α} {messages : List α}

theorem lost_le_post (mailbox : Mailbox α) (message : α) :
    mailbox.lost ≤ (mailbox.post message).lost :=
  Nat.le_add_right _ _

theorem lost_le_postAll (mailbox : Mailbox α) (messages : List α) :
    mailbox.lost ≤ (mailbox.postAll messages).lost := by
  induction messages generalizing mailbox with
  | nil => exact Nat.le_refl _
  | cons first rest ih => exact Nat.le_trans (mailbox.lost_le_post first) (ih _)

theorem postAll_append (mailbox : Mailbox α) (first second : List α) :
    mailbox.postAll (first ++ second) = (mailbox.postAll first).postAll second :=
  List.foldl_append

theorem messages_postAll (none : (mailbox.postAll messages).lost = 0) :
    (mailbox.postAll messages).messages = mailbox.messages ++ messages := by
  induction messages generalizing mailbox with
  | nil => exact (List.append_nil _).symm
  | cons first rest ih =>
      have posted : (mailbox.post first).lost = 0 :=
        Nat.le_zero.mp (none ▸ lost_le_postAll (mailbox.post first) rest)
      have room : (mailbox.messages ++ [first]).length - capacity = 0 := by
        simp only [post] at posted
        omega
      rw [show mailbox.postAll (first :: rest) = (mailbox.post first).postAll rest from rfl, ih none]
      simp only [post, room, List.drop_zero, List.append_assoc, List.singleton_append]

end Mailbox

namespace Document

/-- The changes that are announced. A file can have been given any contents before it is read
again. -/
inductive Change where
  | set (name : String) (value : Json)
  | remove (name : String)
  | copyFrom (bag : Bag)
  | reload (disk : Disk)

def change (document : Document) : Change → Document
  | .set name value => (document.set name value).1
  | .remove name => (document.remove name).1
  | .copyFrom bag => (document.copyFrom bag).1
  | .reload disk => (document.reload disk).1

structure Announces (before after : Document) (names : List String) : Prop where
  notices : after.notices = before.notices.postAll names
  tells : Bag.Tells names before.bag after.bag

variable {document : Document}

theorem announces_nothing (document : Document) : Announces document document [] :=
  ⟨rfl, Bag.tells_nil document.bag⟩

theorem announces_set (document : Document) (name : String) (value : Json) :
    ∃ names, Announces document (document.set name value).1 names := by
  unfold set
  split
  · rename_i bag changed
    refine ⟨[name], rfl, ?_⟩
    have tells := Bag.tells_set (congrArg Prod.snd changed)
    rwa [changed] at tells
  · exact ⟨[], announces_nothing document⟩

theorem announces_remove (document : Document) (name : String) :
    ∃ names, Announces document (document.remove name).1 names := by
  unfold remove
  split
  · rename_i bag removed
    refine ⟨[name], rfl, ?_⟩
    have tells := Bag.tells_remove (congrArg Prod.snd removed)
    rwa [removed] at tells
  · exact ⟨[], announces_nothing document⟩

theorem announces_reload (document : Document) (disk : Disk) :
    ∃ names, Announces document (document.reload disk).1 names := by
  unfold reload
  split
  · exact ⟨[], announces_nothing document⟩
  split
  · exact ⟨_, rfl, Bag.tells_changes document.bag _⟩
  · exact ⟨[], announces_nothing document⟩

theorem reload_of_read {disk : Disk} {other : Bag} (idle : document.isPending = false)
    (found : read disk document.path = .ok (some other)) :
    (document.reload disk).1 =
      { document with bag := other }.announce (document.bag.changes other) := by
  rw [reload, idle, found]
  rfl

def setEach (document : Document) (members : List (String × Json)) : Document :=
  members.foldl (fun document member => (document.set member.1 member.2).1) document

theorem copyFrom_eq (document : Document) (bag : Bag) :
    (document.copyFrom bag).1 = document.setEach bag.members := by
  refine (List.foldl_hom Prod.fst fun start member => ?_).symm
  dsimp only
  split <;> rename_i changed <;> rw [changed]

theorem value?_setEach_of_ne {members : List (String × Json)} {name : String}
    (others : ∀ member ∈ members, Text.lower name ≠ Text.lower member.1) :
    (document.setEach members).bag.value? name = document.bag.value? name := by
  induction members generalizing document with
  | nil => rfl
  | cons first rest ih =>
      obtain ⟨different, others⟩ := List.forall_mem_cons.mp others
      refine (ih others).trans ?_
      rw [(set_bag document first.1 first.2).1]
      exact Bag.value?_set_of_ne different

theorem announces_setEach {members : List (String × Json)}
    (apart : members.Pairwise fun a b => Text.lower a.1 ≠ Text.lower b.1) (document : Document) :
    ∃ names, Announces document (document.setEach members) names := by
  induction members generalizing document with
  | nil => exact ⟨[], announces_nothing document⟩
  | cons first rest ih =>
      obtain ⟨different, apart⟩ := List.pairwise_cons.mp apart
      obtain ⟨early, posted, tellsFirst⟩ := announces_set document first.1 first.2
      obtain ⟨late, postedLater, tellsRest⟩ := ih apart (document.set first.1 first.2).1
      refine ⟨early ++ late, ?_, tellsFirst.append tellsRest fun name => ?_⟩
      · rw [Mailbox.postAll_append, ← posted]
        exact postedLater
      · by_cases same : Text.lower name = Text.lower first.1
        · exact .inr (value?_setEach_of_ne fun member inside => same ▸ different member inside)
        · rw [(set_bag document first.1 first.2).1]
          exact .inl (Bag.value?_set_of_ne same)

theorem announces_copyFrom (document : Document) (bag : Bag) :
    ∃ names, Announces document (document.copyFrom bag).1 names := by
  rw [copyFrom_eq]
  exact announces_setEach bag.members_apart document

theorem announces_change (document : Document) (change : Change) :
    ∃ names, Announces document (document.change change) names := by
  cases change with
  | set name value => exact announces_set document name value
  | remove name => exact announces_remove document name
  | copyFrom bag => exact announces_copyFrom document bag
  | reload disk => exact announces_reload document disk

end Document

end Waymark
