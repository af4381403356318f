import Waymark.Proofs.Backup.Names
import Waymark.Proofs.Disk.Ways
/-!
# Retained backups

A backup adds a snapshot to the directory of the backups of a document, and removes the old backups
there. Whatever else is on the disk stays, and a removal that fails does not make the backup fail.
-/

namespace Waymark.Backup

open Disk

variable {disk copied after : Disk} {path directory : Path} {stem file : String} {place box : Place}
  {contents : ByteArray} {hindrance : Hindrance} {today : Date} {age : Int}

/-- A regular file in a directory that is an old backup, and that can be removed. -/
def Removed (hindrance : Hindrance) (disk : Disk) (today : Date) (age : Int)
    (box place : Place) : Prop :=
  hindrance.listing = none ∧ ∃ name date contents, place = name :: box ∧
    disk.node? place = some (.file contents) ∧ date? name = some date ∧
    age < (today.number - date.number) * day ∧ hindrance.removal name = none

/-- A directory, made if it was missing, holds a snapshot. Some of what was in it is gone, and
nothing else has changed. -/
structure Retained (gone : Place → Prop) (disk : Disk) (box : Place) (file : String)
    (contents : ByteArray) (after : Disk) : Prop where
  here : after.here = disk.here
  made : after.node? box = some .directory
  room : disk.node? box = none ∨ disk.node? box = some .directory
  free : disk.isDirectoryAt (file :: box) = false
  snapshot : after.node? (file :: box) = some (.file contents)
  removed : ∀ place, place ≠ file :: box → gone place → after.node? place = none
  others : ∀ place, place ≠ box → place ≠ file :: box → ¬gone place →
    after.node? place = disk.node? place

structure Beside (disk : Disk) (place : Place) (directory : Path) : Prop where
  nonempty : directory.text ≠ ""
  apart : ∀ file, place ≠ file :: disk.goal directory
  near : ∀ other, disk.LeadsThrough directory other →
    other = disk.goal directory ∨ disk.node? other = some .directory

theorem beside_of_find (named : path.stem? = some stem)
    (found : disk.find path = .ok (place, .file contents)) :
    ∃ directory, directory? path = some directory ∧ Beside disk place directory := by
  obtain ⟨name, document, -⟩ := Option.map_eq_some_iff.mp named
  obtain ⟨parent, before, after, above, absolute, names, notDot, notUp, dots, dots'⟩ :=
    Path.names_of_fileName document
  have noSlash : '/' ∉ (stem ++ ".bak").toList := by
    simp [String.toList_append, Path.slash_notMem_stem named]
  have nonempty : (stem ++ ".bak").toList ≠ [] := by simp [String.toList_append]
  obtain ⟨inner, absolute'⟩ := Path.names_child noSlash nonempty parent
  obtain ⟨goal, walked, -⟩ := goal_of_find found
  have start : disk.origin (parent.child (stem ++ ".bak")) = disk.origin path :=
    origin_eq_of_isAbsolute (absolute'.trans absolute)
  refine ⟨parent.child (stem ++ ".bak"), by simp [directory?, named, above], ?_, ?_, ?_⟩
  · intro empty
    have none : (parent.child (stem ++ ".bak")).names = [] := by
      rw [Path.names, empty]
      rfl
    simp [inner] at none
  · intro file same
    have document : disk.goal path = name :: lead (disk.origin path) parent.names := by
      have whole : path.names = (parent.names ++ before ++ [name]) ++ after := by simp [names]
      rw [Disk.goal, whole, lead_append, lead_dots dots', lead_concat notDot notUp, lead_append,
        lead_dots dots]
    have box : disk.goal (parent.child (stem ++ ".bak")) =
        (stem ++ ".bak") :: lead (disk.origin path) parent.names := by
      rw [goal_child noSlash nonempty (Path.append_ne (by decide) _)
        (Path.append_ne (by decide) _), Disk.goal, origin_eq_of_isAbsolute absolute]
    rw [← goal, document, box] at same
    simpa using congrArg List.length same
  · rintro other ⟨first, within, led⟩
    rw [inner] at within
    rcases List.prefix_concat_iff.mp within with rfl | ⟨rest, whole⟩
    · refine .inl ?_
      rw [← led, Disk.goal, inner]
    · rw [names, ← whole, List.append_assoc, List.append_assoc] at walked
      rw [← led, start]
      exact .inr (isDirectory_of_walk (by simp) walked)

theorem Beside.node? {above : Path} {made : Disk} (beside : Beside disk place directory)
    (names : (directory.child file).names = directory.names ++ [file])
    (absolute : (directory.child file).isAbsolute = directory.isAbsolute)
    (upper : directoryOf (directory.child file) = .ok above) (paved : Paved disk above made)
    {other : Place} (apart : other ≠ disk.goal directory) :
    made.node? other = disk.node? other := by
  rcases paved.node? other with same | ⟨missing, -, through⟩
  · exact same
  obtain ⟨first, within, short, led⟩ := through.of_directoryOf upper
  rw [names] at within short
  rw [origin_eq_of_isAbsolute absolute] at led
  have within : first <+: directory.names :=
    (List.prefix_concat_iff.mp within).resolve_left short
  rcases beside.near other ⟨first, within, led⟩ with same | there
  · exact absurd same apart
  · rw [missing] at there
    cases there

theorem retained_copyFile (beside : Beside disk place directory) (noSlash : '/' ∉ file.toList)
    (nonempty : file.toList ≠ []) (found : disk.find path = .ok (place, .file contents))
    (done : disk.copyFile path (directory.child file) = (copied, .ok ())) :
    Retained (fun _ => False) disk (disk.goal directory) file contents copied ∧
      copied.find (directory.child file) = .ok (file :: disk.goal directory, .file contents) ∧
      copied.find directory = .ok (disk.goal directory, .directory) := by
  obtain ⟨names, absolute⟩ := Path.names_child noSlash nonempty directory
  obtain ⟨above, place', contents', goal, made, upper, paved, found', writable, rfl⟩ :=
    copyFile_ok done
  obtain ⟨rfl, rfl⟩ : place' = place ∧ contents' = contents := by
    have still := find_of_extends paved.extends found
    rw [found'] at still
    simpa using still
  obtain ⟨slot, slotted, placed, slash, free⟩ := slot_of_fileToWrite writable
  obtain ⟨-, front, last, whole, walked, entered, rfl⟩ := place_of_slot slotted placed
  rw [names] at whole
  obtain ⟨rfl, same⟩ := List.append_inj' whole rfl
  cases same
  have start : made.origin (directory.child file) = disk.origin directory := by
    unfold origin
    rw [absolute, paved.here]
  have box : slot.directory = disk.goal directory := by
    rw [← lead_of_walk walked, start]
    rfl
  rw [start] at walked
  rw [box] at placed free entered walked ⊢
  rw [if_neg (beside.apart file).symm]
  have higher : disk.goal directory ≠ file :: disk.goal directory := fun same => by
    simpa using congrArg List.length same
  have elsewhere {other : Place} (outside : other ≠ disk.goal directory) :=
    beside.node? names absolute upper paved outside
  have keeps := keepsDirectories_put free (.file contents')
  have snapshot := @node?_put made _ (.file contents') (List.cons_ne_nil file (disk.goal directory))
  refine ⟨⟨paved.here, keeps _ entered, ?_, ?_, snapshot, nofun, ?_⟩, ?_, ?_⟩
  · rcases paved.node? (disk.goal directory) with same | ⟨missing, -⟩
    · exact .inr (same.symm.trans entered)
    · exact .inl missing
  · rwa [isDirectoryAt, ← elsewhere higher.symm]
  · intro other outside another _
    rw [node?_put_of_ne another, elsewhere outside]
  · exact find_put slotted placed slash free rfl keeps
  · obtain ⟨route, routed, -⟩ := of_bind_ok slotted
    obtain ⟨more, text⟩ := Path.text_child noSlash beside.nonempty
    obtain ⟨shorter, routed⟩ := route_of_longer routed beside.nonempty text
    have origin : (made.put (file :: disk.goal directory) (.file contents')).origin directory =
        disk.origin directory := origin_eq paved.here
    exact find_of_walk ((route_eq rfl directory).trans routed)
      (origin.symm ▸ walk_of_keepsDirectories keeps walked) (keeps _ entered)

theorem isExpired_iff {name : String} : isExpired today age name = true ↔
    ∃ date, date? name = some date ∧ age < (today.number - date.number) * day := by
  unfold isExpired
  cases date? name with
  | none => simp
  | some date => simp

theorem cons_ne_self (name : String) (box : Place) : name :: box ≠ box := fun same => by
  simpa using congrArg List.length same

theorem removable_iff (distinct : copied.Distinct)
    (stored : Retained (fun _ => False) disk box file contents copied)
    (listed : hindrance.listing = none) (another : place ≠ file :: box) :
    (∃ name ∈ removable hindrance copied today age box file, place = name :: box) ↔
      Removed hindrance disk today age box place := by
  constructor
  · rintro ⟨name, inside, rfl⟩
    obtain ⟨⟨contents, there⟩, -, old, free⟩ := (mem_removable distinct).mp inside
    obtain ⟨date, dated, old⟩ := isExpired_iff.mp old
    rw [stored.others _ (cons_ne_self name box) another not_false] at there
    exact ⟨listed, name, date, contents, rfl, there, dated, old, free⟩
  · rintro ⟨-, name, date, contents, rfl, there, dated, old, free⟩
    rw [← stored.others _ (cons_ne_self name box) another not_false] at there
    have other : name ≠ file := fun same => another (congrArg (· :: box) same)
    exact ⟨name, (mem_removable distinct).mpr
      ⟨⟨contents, there⟩, other, isExpired_iff.mpr ⟨date, dated, old⟩, free⟩, rfl⟩

theorem retained_prune (hindrance : Hindrance) (today : Date) (age : Int)
    (distinct : copied.Distinct) (stored : Retained (fun _ => False) disk box file contents copied)
    (found : copied.find directory = .ok (box, .directory)) :
    Retained (Removed hindrance disk today age box) disk box file contents
      (prune hindrance copied today age directory file).1 := by
  unfold prune
  rw [found]
  cases listed : hindrance.listing with
  | some fault =>
      have none (place : Place) : ¬Removed hindrance disk today age box place := fun removed => by
        cases listed.symm.trans removed.1
      exact ⟨stored.here, stored.made, stored.room, stored.free, stored.snapshot,
        fun place _ removed => absurd removed (none place),
        fun place other another _ => stored.others place other another not_false⟩
  | none =>
      dsimp only
      refine ⟨(here_removeAll _ _ _).trans stored.here, ?_, stored.room, stored.free, ?_, ?_, ?_⟩
      · rw [node?_removeAll, if_neg, stored.made]
        rintro ⟨name, -, same⟩
        exact cons_ne_self name box same.symm
      · rw [node?_removeAll, if_neg, stored.snapshot]
        rintro ⟨name, inside, same⟩
        obtain ⟨-, other, -⟩ := (mem_removable distinct).mp inside
        exact other (List.cons.inj same).1.symm
      · intro place another removed
        rw [node?_removeAll, if_pos ((removable_iff distinct stored listed another).mpr removed)]
      · intro place other another remains
        rw [node?_removeAll, if_neg (mt (removable_iff distinct stored listed another).mp remains),
          stored.others place other another not_false]

theorem Retained.keepsDirectories
    (retained : Retained (Removed hindrance disk today age box) disk box file contents after) :
    KeepsDirectories disk after := by
  intro place there
  by_cases other : place = box
  · rw [other, retained.made]
  have another : place ≠ file :: box := by
    rintro rfl
    have free := retained.free
    simp [isDirectoryAt, there] at free
  rw [retained.others place other another, there]
  rintro ⟨-, -, -, _, -, file, -⟩
  rw [there] at file
  cases file

theorem Retained.ne_box {gone : Place → Prop} {content : ByteArray}
    (retained : Retained gone disk box file contents after)
    (there : disk.node? place = some (.file content)) : place ≠ box := by
  rintro rfl
  rcases retained.room with none | box
  · rw [there] at none
    cases none
  · rw [there] at box
    cases box

theorem Retained.keepsDirectories_prune
    (stored : Retained (fun _ => False) disk box file contents copied)
    (retained : Retained (Removed hindrance disk today age box) disk box file contents after) :
    KeepsDirectories copied after := by
  intro place there
  by_cases other : place = box
  · rw [other, retained.made]
  have another : place ≠ file :: box := by
    rintro rfl
    rw [stored.snapshot] at there
    cases there
  rw [stored.others place other another not_false] at there
  exact retained.keepsDirectories place there

theorem makeDespite_of_copyFile (distinct : disk.Distinct) (named : path.stem? = some stem)
    (nearby : directory? path = some directory) (beside : Beside disk place directory)
    (hindrance : Hindrance) (ticker : Ticker) (today : Date) (clock : Int) (aged : 0 ≤ age)
    (found : disk.find path = .ok (place, .file contents))
    (done : disk.copyFile path (directory.child (name today (ticker.next clock).2 stem)) =
      (copied, .ok ())) :
    let file := name today (ticker.next clock).2 stem
    ∃ after, makeDespite hindrance disk ticker today clock path age =
        (after, (ticker.next clock).1, .ok (some (directory.child file))) ∧
      after.find (directory.child file) = .ok (file :: disk.goal directory, .file contents) ∧
      after.find path = .ok (place, .file contents) ∧
      after.find directory = .ok (disk.goal directory, .directory) ∧
      Retained (Removed hindrance disk today age (disk.goal directory)) disk (disk.goal directory)
        file contents after := by
  intro file
  have noSlash : '/' ∉ file.toList :=
    slash_notMem_name (Path.slash_notMem_stem named) today (ticker.next clock).2
  have nonempty : file.toList ≠ [] := by simp [file, toList_name]
  obtain ⟨stored, atTarget, atDirectory⟩ :=
    retained_copyFile beside noSlash nonempty found done
  have distinct : copied.Distinct := by
    have := distinct.copyFile path (directory.child file)
    rwa [done] at this
  have retained := retained_prune hindrance today age distinct stored atDirectory
  have proceeds : (age < 0 || !disk.isFile path) = false := by
    simp [aged, isFile, found]
  have result : makeDespite hindrance disk ticker today clock path age =
      ((prune hindrance copied today age directory file).1, (ticker.next clock).1,
        .ok (some (directory.child file))) := by
    rw [makeDespite, proceeds, if_neg Bool.false_ne_true, named, nearby]
    dsimp only
    rw [done]
    dsimp only
    split <;> rename_i pruned <;> rw [pruned]
  have keeps := stored.keepsDirectories_prune retained
  have here := retained.here.trans stored.here.symm
  refine ⟨_, result, ?_, ?_, ?_, retained⟩
  · refine find_of_keeps here keeps (fun node there => ?_) atTarget
    rw [stored.snapshot] at there
    rw [retained.snapshot, there]
  · refine find_of_keeps retained.here retained.keepsDirectories (fun node there => ?_) found
    have other := retained.ne_box (goal_of_find found).2.2
    rw [retained.others place other (beside.apart file), there]
    rintro ⟨-, name, _, _, same, -⟩
    exact beside.apart name same
  · refine find_of_keeps here keeps (fun node there => ?_) atDirectory
    exact retained.made.trans (stored.made.symm.trans there)

/-- A backup that is asked for and can copy its document returns a snapshot with the same contents, and
leaves all else but the old backups that can be removed. One of no age or of no file does nothing. -/
theorem makeDespite_retains (distinct : disk.Distinct) (named : path.stem? = some stem)
    (hindrance : Hindrance) (ticker : Ticker) (today : Date) (clock age : Int) :
    (age < 0 ∨ disk.isFile path = false →
      makeDespite hindrance disk ticker today clock path age = (disk, ticker, .ok none)) ∧
    ∀ place contents, 0 ≤ age → disk.find path = .ok (place, .file contents) →
      ∃ directory, directory? path = some directory ∧
        let file := name today (ticker.next clock).2 stem
        ∀ copied, disk.copyFile path (directory.child file) = (copied, .ok ()) →
          ∃ after, makeDespite hindrance disk ticker today clock path age =
              (after, (ticker.next clock).1, .ok (some (directory.child file))) ∧
            after.contents (directory.child file) = .ok contents ∧
            after.contents path = .ok contents ∧
            after.find directory = .ok (disk.goal directory, .directory) ∧
            Retained (Removed hindrance disk today age (disk.goal directory)) disk
              (disk.goal directory) file contents after := by
  refine ⟨fun nothing => ?_, fun place contents aged found => ?_⟩
  · have skipped : (age < 0 || !disk.isFile path) = true := by simpa using nothing
    rw [makeDespite, if_pos skipped]
  · obtain ⟨directory, nearby, beside⟩ := beside_of_find named found
    refine ⟨directory, nearby, fun copied done => ?_⟩
    obtain ⟨after, made, atTarget, atPath, rest⟩ :=
      makeDespite_of_copyFile distinct named nearby beside hindrance ticker today clock aged found
        done
    exact ⟨after, made, contents_of_find atTarget, contents_of_find atPath, rest⟩

def keptDisk : Disk :=
  ⟨[(["a.json"], .file ⟨#[1]⟩), (["a.bak"], .directory),
    (["2026_09_18.1.a.json", "a.bak"], .file ⟨#[2]⟩),
    (["2026_09_19.2.a.json", "a.bak"], .file ⟨#[3]⟩)], []⟩

theorem makeDespite_retains_thirtyDays :
    keptDisk.Distinct ∧ Path.stem? ⟨"/a.json"⟩ = some "a" ∧ ∃ after,
      makeDespite noHindrance keptDisk ⟨4⟩ ⟨2026, 10, 19⟩ 3 ⟨"/a.json"⟩ (30 * day) =
        (after, ⟨5⟩, .ok (some ⟨"/a.bak/2026_10_19.5.a.json"⟩)) ∧
      after.contents ⟨"/a.bak/2026_10_19.5.a.json"⟩ = .ok ⟨#[1]⟩ ∧
      after.node? ["2026_09_18.1.a.json", "a.bak"] = none ∧
      after.node? ["2026_09_19.2.a.json", "a.bak"] = some (.file ⟨#[3]⟩) := by
  have distinct : keptDisk.Distinct := by
    unfold Disk.Distinct keptDisk
    decide
  have named : Path.stem? ⟨"/a.json"⟩ = some "a" := by decide
  obtain ⟨-, retains⟩ :=
    makeDespite_retains distinct named noHindrance ⟨4⟩ ⟨2026, 10, 19⟩ 3 (30 * day)
  obtain ⟨directory, beside, backedUp⟩ := retains ["a.json"] ⟨#[1]⟩ (by decide) rfl
  have nearby : directory? ⟨"/a.json"⟩ = some ⟨"/a.bak"⟩ := by decide
  cases Option.some.inj (nearby.symm.trans beside)
  obtain ⟨after, made, snapshot, -, -, retained⟩ := backedUp _ rfl
  refine ⟨distinct, named, after, made, snapshot, ?_, ?_⟩
  · refine retained.removed _ (by decide +kernel) ⟨rfl, _, ⟨2026, 9, 18⟩, _, rfl, rfl, ?_, ?_, rfl⟩
    · decide +kernel
    · decide +kernel
  · refine (retained.others _ (by decide +kernel) (by decide +kernel) ?_).trans rfl
    rintro ⟨-, name, date, _, same, -, dated, old, -⟩
    cases (List.cons.inj same).1
    have boundary : date? "2026_09_19.2.a.json" = some ⟨2026, 9, 19⟩ := by decide +kernel
    cases Option.some.inj (boundary.symm.trans dated)
    exact absurd old (by decide +kernel)

end Waymark.Backup
