import Waymark.Instance
import Waymark.Proofs.Bag.Dictionary
import Waymark.Proofs.Bag.Latest
import Waymark.Proofs.Disk.Ways
import Waymark.Proofs.Document.Clocked
/-!
# Documents of instances

Each instance has a document of its own in the directory of the instances, and no name leads
anywhere else. A document that tells no name is given the name of its instance, once.
-/

namespace Waymark

namespace Layout

variable {layout : Layout} {name other : String} {path another : Path}

/-- A name that leads nowhere and separates nothing, on any system. -/
structure Admissible (name : String) : Prop where
  nonempty : name ≠ ""
  notDot : name ≠ "."
  notUp : name ≠ ".."
  noSlash : '/' ∉ name.toList
  noBackslash : '\\' ∉ name.toList
  noColon : ':' ∉ name.toList

theorem isInstanceName_iff : isInstanceName name = true ↔ Admissible name := by
  have apart : (name.toList.all fun c => c ≠ '/' && c ≠ '\\' && c ≠ ':') = true ↔
      '/' ∉ name.toList ∧ '\\' ∉ name.toList ∧ ':' ∉ name.toList := by
    simp only [List.all_eq_true]
    grind
  unfold isInstanceName
  rw [Bool.and_eq_true, apart]
  simp only [Bool.and_eq_true, Bool.not_eq_true', String.isEmpty_eq_false_iff, decide_eq_true_eq]
  exact ⟨fun ⟨⟨⟨nonempty, notDot⟩, notUp⟩, noSlash, noBackslash, noColon⟩ =>
      ⟨nonempty, notDot, notUp, noSlash, noBackslash, noColon⟩,
    fun admissible => ⟨⟨⟨admissible.nonempty, admissible.notDot⟩, admissible.notUp⟩,
      admissible.noSlash, admissible.noBackslash, admissible.noColon⟩⟩

theorem Admissible.fileName? (admissible : Admissible name) :
    (Path.mk name).fileName? = some name := by
  have part : Path.isPart name.toList :=
    Path.isPart_toList.mpr ⟨admissible.nonempty, admissible.notDot⟩
  have notUp : name.toList ≠ "..".toList := mt String.toList_inj.mp admissible.notUp
  have alone : (Path.mk "").child name = ⟨name⟩ := by simp [Path.child, Path.join]
  exact alone ▸ Path.fileName?_child admissible.noSlash part notUp ⟨""⟩

theorem instanceSettings_of_admissible (layout : Layout) (admissible : Admissible name) :
    layout.instanceSettings name = .ok (layout.instances.child (name ++ ".json")) :=
  if_pos (isInstanceName_iff.mpr admissible)

theorem instanceSettings_of_not_admissible (layout : Layout) (refused : ¬Admissible name) :
    layout.instanceSettings name = .error (.invalidPath ⟨name⟩) :=
  if_neg (mt isInstanceName_iff.mp refused)

theorem of_instanceSettings (given : layout.instanceSettings name = .ok path) :
    Admissible name ∧ path = layout.instances.child (name ++ ".json") := by
  unfold instanceSettings at given
  split at given
  · rename_i accepted
    exact ⟨isInstanceName_iff.mp accepted, (Except.ok.inj given).symm⟩
  · cases given

/-- A file in the directory of the instances, however it is looked at. -/
structure Confined (layout : Layout) (path : Path) (file : String) : Prop where
  parent? : path.parent? = some layout.instances
  fileName? : path.fileName? = some file
  goal (disk : Disk) : disk.goal path = file :: disk.goal layout.instances

theorem confined_of_instanceSettings (given : layout.instanceSettings name = .ok path) :
    layout.Confined path (name ++ ".json") := by
  obtain ⟨admissible, rfl⟩ := of_instanceSettings given
  have noSlash : '/' ∉ (name ++ ".json").toList := by
    simp [String.toList_append, admissible.noSlash]
  have long {short : String} (few : short.length < 5) : name ++ ".json" ≠ short :=
    Path.append_ne few name
  have part : Path.isPart (name ++ ".json").toList :=
    Path.isPart_toList.mpr ⟨long (by decide), long (by decide)⟩
  obtain ⟨before, ends⟩ := @Path.split_body_child "instances" (by decide) rfl layout.directory
  exact
    { parent? := Path.parent?_child noSlash part (by decide) ends
      fileName? := Path.fileName?_child noSlash part
        (mt (@String.toList_inj _ "..").mp (long (by decide))) layout.instances
      goal := fun disk => Disk.goal_child noSlash (mt (@String.toList_inj _ "").mp (long (by decide)))
        (long (by decide)) (long (by decide)) layout.instances }

theorem Confined.eq_name (confined : layout.Confined path (name ++ ".json"))
    (others : layout.Confined another (other ++ ".json"))
    (same : another.fileName? = path.fileName? ∨ ∃ disk : Disk, disk.goal another = disk.goal path) :
    other = name := by
  have files : other ++ ".json" = name ++ ".json" := by
    rcases same with same | ⟨disk, same⟩
    · rw [confined.fileName?, others.fileName?] at same
      exact Option.some.inj same
    · rw [confined.goal, others.goal] at same
      exact (List.cons.inj same).1
  exact (String.append_left_inj ".json").mp files

end Layout

namespace Document

variable {document : Document}

structure Outstanding (document : Document) (delay : Nat) : Prop where
  isPending : document.isPending = true
  waited (disk : Disk) (now later : Nat) : (document.wait disk now later).2 =
    if now + delay < later then (disk.replace document.path (contents document.bag)).1 else disk
  flushed (disk : Disk) (now : Nat) :
    (document.flush disk now).2.1 = (disk.replace document.path (contents document.bag)).1
  closed (disk : Disk) :
    document.close disk = (disk.replace document.path (contents document.bag)).1

theorem outstanding_of_schedule {delay : Nat} (pending : document.isPending = true)
    (asked : document.writer = some ⟨[.schedule delay], none⟩) : document.Outstanding delay where
  isPending := pending
  waited := by
    intro disk now later
    rw [Clocked.wait_eq asked (by simp)]
    simp only [Clocked.deadlineAfter, List.foldl_cons, List.foldl_nil]
    split
    · exact disk_writePending_of_pending { document with writer := some ⟨[], none⟩ } pending disk
    · rfl
  flushed := by
    intro disk now
    rw [(@flush_of_schedules document [delay] none asked disk now).1]
    exact document.disk_writePending_of_pending pending disk
  closed := document.disk_writePending_of_pending pending

end Document

namespace Instance

variable {bag : Bag} {layout : Layout} {disk : Disk} {name : String} {path : Path}
  {hasWriter : Bool}

def storedName? (bag : Bag) : Option String :=
  match bag.value? "instanceName" with
  | some (.string text) => some text
  | _ => none

theorem name?_eq (bag : Bag) : name? bag = storedName? bag := by
  rw [name?, Bag.get?, storedName?]
  cases bag.value? "instanceName" with
  | none => rfl
  | some value => cases value <;> rfl

theorem storedName?_reread (bag : Bag) : storedName? bag.reread = storedName? bag := by
  rw [storedName?, storedName?, Bag.value?_reread]
  cases bag.value? "instanceName" with
  | none => rfl
  | some value => cases value <;> rfl

theorem storedName?_set (bag : Bag) (name : String) :
    storedName? (bag.set "instanceName" (.string name)).1 = some name := by
  have stored : (bag.set "instanceName" (.string name)).1.value? "instanceName" =
      some (.string name) := Bag.value?_set (by decide) trivial
  rw [storedName?, stored]

theorem set_nameless (nameless : storedName? bag = none) (name : String) :
    (bag.set "instanceName" (.string name)).2 = true := by
  by_contra unchanged
  have same := Document.bag_set_unchanged (Bool.eq_false_iff.mpr unchanged)
  have named := storedName?_set bag name
  rw [same, nameless] at named
  cases named

theorem open_of_named (given : layout.instanceSettings name = .ok path)
    (named : storedName? (Document.load disk path) ≠ none) :
    «open» disk layout name hasWriter = .ok (Document.open disk path hasWriter, disk) := by
  have tells : (name? (Document.open disk path hasWriter).bag).isSome = true := by
    rw [name?_eq]
    exact Option.isSome_iff_ne_none.mpr named
  simp only [«open», given, bind, Except.bind, tells, if_true]

def named (disk : Disk) (path : Path) (name : String) (hasWriter : Bool) : Document :=
  ((Document.open disk path hasWriter).set "instanceName" (.string name)).1

theorem open_of_nameless (given : layout.instanceSettings name = .ok path)
    (nameless : storedName? (Document.load disk path) = none) :
    «open» disk layout name hasWriter = .ok ((named disk path name hasWriter).saveSoon disk) := by
  have silent : (name? (Document.open disk path hasWriter).bag).isSome = false := by
    rw [name?_eq]
    exact Option.isSome_eq_false_iff.mpr (Option.isNone_iff_eq_none.mpr nameless)
  have changed : ((Document.open disk path hasWriter).set "instanceName" (.string name)).2 = true :=
    (Document.set_flag _ _ _).trans (set_nameless nameless name)
  have outcome : (Document.open disk path hasWriter).set "instanceName" (.string name) =
      (named disk path name hasWriter, true) := Prod.ext rfl changed
  simp only [«open», given, bind, Except.bind, silent, outcome, Bool.false_eq_true, if_false]

def Saves (disk : Disk) (document : Document) (after : Disk) : Bool → Prop
  | true => after = disk ∧ document.Outstanding Document.soon
  | false =>
      after = (disk.replace document.path (Document.contents document.bag)).1 ∧
        document.isPending = false

theorem saves_saveSoon {document : Document}
    (idle : document.writer = if hasWriter then some ⟨[], none⟩ else none) (disk : Disk) :
    Saves disk (document.saveSoon disk).1 (document.saveSoon disk).2 hasWriter := by
  cases hasWriter with
  | true =>
      rw [Document.saveSoon, Document.save_deferred (by decide) idle]
      exact ⟨rfl, Document.outstanding_of_schedule rfl rfl⟩
  | false =>
      -- Without a writer to wait for, the save is a write.
      let marked := { document with isPending := true }
      have direct : document.save disk Document.soon = marked.writePending disk := by
        simp [Document.save, idle, marked]
      have same := marked.sameBag_writePending disk
      rw [Document.saveSoon, direct]
      dsimp only [Saves]
      rw [same.1, same.2]
      exact ⟨marked.disk_writePending_of_pending rfl disk, marked.isPending_writePending disk⟩

structure Opened (layout : Layout) (disk : Disk) (name : String) (path : Path) (hasWriter : Bool)
    (document : Document) (after : Disk) : Prop where
  located : document.path = path
  named : name? document.bag = some ((storedName? (Document.load disk path)).getD name)
  others (other : String) (different : Text.lower other ≠ Text.lower "instanceName") :
    document.bag.find? other = (Document.load disk path).find? other
  kept (named : storedName? (Document.load disk path) ≠ none) :
    document = Document.open disk path hasWriter ∧ after = disk
  saves (nameless : storedName? (Document.load disk path) = none) :
    Saves disk document after hasWriter
  again {before written : Disk} (hasWriter : Bool)
    (done : before.replace path (Document.contents document.bag) = (written, .ok ())) :
    «open» written layout name hasWriter = .ok (Document.open written path hasWriter, written) ∧
      (Document.open written path hasWriter).isPending = false ∧
      name? (Document.load written path) = name? document.bag ∧
      ((Document.load disk path).NoDoubles → Document.load written path = document.bag)

/-- Where a document that tells a name was written, it is opened as it was, and nothing is saved. -/
theorem open_of_written (given : layout.instanceSettings name = .ok path) (held : bag.Held)
    (named : storedName? bag ≠ none) {before written : Disk}
    (done : before.replace path (Document.contents bag) = (written, .ok ())) :
    «open» written layout name hasWriter = .ok (Document.open written path hasWriter, written) ∧
      name? (Document.load written path) = name? bag ∧
      (bag.NoDoubles → Document.load written path = bag) := by
  have loaded := Document.load_of_written held (Disk.contents?_replace done)
  have tells : storedName? (Document.load written path) = storedName? bag :=
    loaded ▸ storedName?_reread bag
  refine ⟨open_of_named given (tells ▸ named), ?_, fun whole => ?_⟩
  · rw [name?_eq, name?_eq, tells]
  · rw [loaded, Bag.reread_of_noDoubles whole]

theorem opened_of_named (given : layout.instanceSettings name = .ok path)
    (named : storedName? (Document.load disk path) ≠ none) :
    Opened layout disk name path hasWriter (Document.open disk path hasWriter) disk where
  located := rfl
  named := by
    obtain ⟨text, stored⟩ := Option.ne_none_iff_exists'.mp named
    rw [name?_eq, stored]
    exact stored
  others := fun _ _ => rfl
  kept := fun _ => ⟨rfl, rfl⟩
  saves := fun nameless => absurd nameless named
  again := by
    intro before written hasWriter done
    obtain ⟨opened, tells, whole⟩ := open_of_written given (Document.load_held disk path) named done
    exact ⟨opened, rfl, tells, whole⟩

theorem opened_of_nameless (given : layout.instanceSettings name = .ok path)
    (nameless : storedName? (Document.load disk path) = none) :
    let saved := (Instance.named disk path name hasWriter).saveSoon disk
    Opened layout disk name path hasWriter saved.1 saved.2 := by
  intro saved
  have idle : (Instance.named disk path name hasWriter).writer =
      if hasWriter then some ⟨[], none⟩ else none := by
    rw [Instance.named, Document.set_eq]
    rfl
  have saves : Saves disk saved.1 saved.2 hasWriter := saves_saveSoon idle disk
  have same : saved.1.SameBag (Instance.named disk path name hasWriter) :=
    Document.sameBag_saveSoon _ disk
  have set := Document.set_bag (Document.open disk path hasWriter) "instanceName" (.string name)
  have bag : saved.1.bag = ((Document.load disk path).set "instanceName" (.string name)).1 :=
    same.1.trans set.1
  have stored : storedName? saved.1.bag = some name := bag ▸ storedName?_set _ name
  have held : saved.1.bag.Held :=
    bag ▸ (Document.load_held disk path).set _ ⟨trivial, trivial, Nat.zero_le _⟩
  exact
    { located := same.2.trans set.2
      named := by
        rw [name?_eq, stored, nameless]
        rfl
      others := fun other different => bag ▸ Bag.findKey?_set_of_ne different
      kept := fun named => absurd nameless named
      saves := fun _ => saves
      again := by
        intro before written hasWriter done
        obtain ⟨opened, tells, whole⟩ := open_of_written given held (by simp [stored]) done
        exact ⟨opened, rfl, tells, fun noDoubles =>
          whole (bag ▸ noDoubles.set "instanceName" trivial)⟩ }

/-- The settings of an instance lie in a file of their own in the directory of the instances. A name
that would lead elsewhere is refused, and all others are accepted. No two names share a file.
Whatever the file holds, the settings that are opened tell the name that is stored, or else the name
of the instance. That one is saved, and once it was written the settings are opened as they were. -/
theorem opens_confined (layout : Layout) (name : String) :
    (¬Layout.Admissible name →
      layout.instanceSettings name = .error (.invalidPath ⟨name⟩) ∧
      ∀ disk hasWriter, «open» disk layout name hasWriter = .error (.invalidPath ⟨name⟩)) ∧
    (Layout.Admissible name → (Path.mk name).fileName? = some name ∧ ∃ path,
      layout.instanceSettings name = .ok path ∧ layout.Confined path (name ++ ".json") ∧
      (∀ other another, layout.instanceSettings other = .ok another →
        (another.fileName? = path.fileName? ∨ ∃ disk : Disk, disk.goal another = disk.goal path) →
          other = name) ∧
      ∀ disk hasWriter, ∃ document after,
        «open» disk layout name hasWriter = .ok (document, after) ∧
          Opened layout disk name path hasWriter document after) := by
  refine ⟨fun refused => ?_, fun admissible => ?_⟩
  · have error := layout.instanceSettings_of_not_admissible refused
    refine ⟨error, fun disk hasWriter => ?_⟩
    rw [«open», error]
    rfl
  obtain ⟨path, given⟩ : ∃ path, layout.instanceSettings name = .ok path :=
    ⟨_, layout.instanceSettings_of_admissible admissible⟩
  have confined := Layout.confined_of_instanceSettings given
  refine ⟨admissible.fileName?, path, given, confined, fun other another others same => ?_,
    fun disk hasWriter => ?_⟩
  · exact confined.eq_name (Layout.confined_of_instanceSettings others) same
  by_cases nameless : storedName? (Document.load disk path) = none
  · let saved := (Instance.named disk path name hasWriter).saveSoon disk
    exact ⟨saved.1, saved.2, open_of_nameless given nameless, opened_of_nameless given nameless⟩
  · exact ⟨_, _, open_of_named given nameless, opened_of_named given nameless⟩

/-- Work is opened where there is nothing yet, and opened again once it was written. -/
theorem opens_confined_work : ∃ path document written,
    (Layout.mk ⟨"/"⟩).instanceSettings "work" = .ok path ∧
      «open» .blank ⟨⟨"/"⟩⟩ "work" true = .ok (document, .blank) ∧
      name? document.bag = some "work" ∧ document.Outstanding Document.soon ∧
      document.close .blank = written ∧
      «open» written ⟨⟨"/"⟩⟩ "work" true = .ok (Document.open written path true, written) ∧
      Document.load written path = document.bag := by
  obtain ⟨-, path, given, -, -, opens⟩ := (opens_confined ⟨⟨"/"⟩⟩ "work").2
    ⟨by decide, by decide, by decide, by decide, by decide, by decide⟩
  obtain ⟨document, after, done, opened⟩ := opens .blank true
  have place : path = ⟨"/instances/work.json"⟩ := (Except.ok.inj given).symm
  subst place
  have loaded : Document.load .blank ⟨"/instances/work.json"⟩ = .empty := rfl
  have nameless : storedName? (Document.load .blank ⟨"/instances/work.json"⟩) = none := by
    rw [loaded]
    rfl
  obtain ⟨rfl, outstanding⟩ := opened.saves nameless
  have named := opened.named
  rw [nameless] at named
  have written : Disk.replace .blank ⟨"/instances/work.json"⟩ (Document.contents document.bag) =
      (document.close .blank, .ok ()) := by
    rw [outstanding.closed, opened.located]
    rfl
  obtain ⟨again, -, -, whole⟩ := opened.again true written
  exact ⟨_, document, _, given, done, named, outstanding, rfl, again,
    whole (loaded ▸ Bag.noDoubles_empty)⟩

end Instance
end Waymark
