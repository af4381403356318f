import Waymark.Backup
import Waymark.Proofs.Disk.Replace
import Waymark.Proofs.Path
/-!
# What backups spare

A backup adds directories and a copy, and removes old copies. Directories stay, and so do files with
a name that no copy has.
-/

namespace Waymark

namespace Disk

variable {disk other : Disk} {place : Place} {node : Node} {name : String}

def Distinct (disk : Disk) : Prop :=
  disk.nodes.Pairwise fun a b => a.1 ≠ b.1

theorem Distinct.erase (distinct : disk.Distinct) (place : Place) : (disk.erase place).Distinct :=
  List.Pairwise.filter _ distinct

theorem Distinct.put (distinct : disk.Distinct) (place : Place) (node : Node) :
    (disk.put place node).Distinct := by
  refine List.pairwise_cons.mpr ⟨fun entry inside => ?_, distinct.erase place⟩
  exact Ne.symm (of_decide_eq_true (List.mem_filter.mp inside).2)

theorem Distinct.node? (distinct : disk.Distinct) (nonempty : place ≠ [])
    (inside : (place, node) ∈ disk.nodes) : disk.node? place = some node := by
  obtain ⟨nodes, here⟩ := disk
  unfold Disk.node?
  rw [if_neg nonempty]
  dsimp only at inside ⊢
  induction nodes with
  | nil => cases inside
  | cons first rest ih =>
      obtain ⟨others, distinct⟩ := List.pairwise_cons.mp distinct
      rcases List.mem_cons.mp inside with rfl | later
      · simp
      · rw [List.find?_cons_of_neg (by simpa using others _ later)]
        exact ih distinct later

theorem Distinct.makeDirectory (distinct : disk.Distinct) {path : Path}
    (made : disk.makeDirectory path = .ok other) : other.Distinct := by
  obtain ⟨-, place, -, -, -, rfl⟩ := of_makeDirectory made
  exact distinct.put place .directory

theorem Distinct.making (distinct : disk.Distinct) (refusals : Refusals) (path : Path) :
    (disk.making refusals path).disk.Distinct :=
  (makeLineage_keeps refusals (fun _ _ _ _ distinct made => distinct.makeDirectory made) distinct).2

theorem copyFile_cases (disk : Disk) (source target : Path) :
    (∃ failure, disk.copyFile source target = (disk, .error failure)) ∨
      ∃ directory, directoryOf target = .ok directory ∧
        let made := (disk.making (fun _ _ => none) directory).disk
        (∃ failure, disk.copyFile source target = (made, .error failure)) ∨
          ∃ place contents goal, made.find source = .ok (place, .file contents) ∧
            made.fileToWrite target = .ok goal ∧
            disk.copyFile source target =
              (made.put goal (.file (if goal = place then .empty else contents)), .ok ()) := by
  unfold copyFile
  cases upper : directoryOf target with
  | error failure => exact .inl ⟨failure, rfl⟩
  | ok directory =>
      refine .inr ⟨directory, rfl, ?_⟩
      simp only [makeDirectories]
      generalize disk.making _ directory = making
      obtain ⟨passed, made, result⟩ := making
      cases result with
      | error fault => exact .inl ⟨.io fault, rfl⟩
      | ok done =>
          dsimp only
          split
          · rename_i copied
            obtain ⟨_, copied⟩ := of_retry_ok copied
            obtain ⟨⟨place, node⟩, found, copied⟩ := of_bind_ok copied
            cases node with
            | directory => cases copied
            | file contents =>
                obtain ⟨goal, writable, copied⟩ := of_bind_ok copied
                cases copied
                exact .inr ⟨place, contents, goal, found, writable, rfl⟩
          · rename_i fault _
            exact .inl ⟨.io fault, rfl⟩

theorem Distinct.copyFile (distinct : disk.Distinct) (source target : Path) :
    (disk.copyFile source target).1.Distinct := by
  rcases copyFile_cases disk source target with
    ⟨_, same⟩ | ⟨directory, -, ⟨_, kept⟩ | ⟨_, _, goal, -, -, copied⟩⟩
  · rwa [same]
  · rw [kept]
    exact distinct.making _ directory
  · rw [copied]
    exact (distinct.making _ directory).put goal _

theorem Distinct.rename (distinct : disk.Distinct) {source : Place} {path : Path}
    (moved : disk.rename source path = .ok other) : other.Distinct := by
  obtain ⟨-, target, node, -, -, -, -, -, rfl⟩ := of_rename moved
  exact (distinct.erase source).put target node

theorem Distinct.replaceFrom (distinct : disk.Distinct) (amid : Circumstances) (source : Place)
    (path : Path) (contents : ByteArray) :
    (Disk.replaceFrom amid disk source path contents).disk.Distinct := by
  have filled : (disk.put source (.file contents)).Distinct := distinct.put source _
  have replaced := replaced_replaceFrom amid disk source path contents
  cases result : (Disk.replaceFrom amid disk source path contents).result with
  | error failure =>
      rw [replaced.failed failure result]
      exact filled.erase source
  | ok done => exact filled.rename (replaced.done result)

theorem Distinct.replace (distinct : disk.Distinct) (path : Path) (contents : ByteArray) :
    (disk.replace path contents).1.Distinct := by
  unfold Disk.replace replaceCourse replaceAmid
  split
  · exact distinct
  · rename_i directory _
    have made := distinct.making (noTrouble <| .makeDirectory · ·) directory
    dsimp only
    split
    · exact made
    · split
      · exact made
      · exact made
      · exact made.replaceFrom _ _ path contents

theorem follow_eq (named : isDots name = false) {directory : Place}
    (followed : follow directory name = .ok place) : place = name :: directory := by
  unfold isDots at named
  unfold follow at followed
  simp only [Bool.or_eq_false_iff, decide_eq_false_iff_not] at named
  rw [if_neg named.1, if_neg named.2] at followed
  split at followed
  · cases followed
  · cases followed
    rfl

theorem names_of_route {path : Path} {route : Route} (routed : disk.route path = .ok route) :
    route.names.getLast? = path.lastName? := by
  unfold Disk.route at routed
  dsimp only at routed
  split at routed
  · cases routed
  split at routed
  · cases routed
  split at routed
  · cases routed
  · cases routed
    rfl

theorem slot_of_fileToWrite {path : Path} (writable : disk.fileToWrite path = .ok place) :
    ∃ slot, disk.slot path = .ok slot ∧ slot.place? = .ok (some place) ∧
      slot.endsInSlash = false ∧ disk.isDirectoryAt place = false := by
  obtain ⟨slot, slotted, writable⟩ := of_bind_ok writable
  split at writable
  · cases writable
  rename_i noSlash
  obtain ⟨placed, follows, writable⟩ := of_bind_ok writable
  cases placed with
  | none => cases writable
  | some goal =>
      dsimp only at writable
      split at writable
      · cases writable
      rename_i free
      cases writable
      exact ⟨slot, slotted, follows, Bool.eq_false_iff.mpr noSlash, Bool.eq_false_iff.mpr free⟩

theorem place_of_fileToWrite {path : Path} (writable : disk.fileToWrite path = .ok place) :
    disk.isDirectoryAt place = false ∧ ∃ name directory, path.lastName? = some name ∧
      place = name :: directory := by
  obtain ⟨slot, slotted, placed, -, free⟩ := slot_of_fileToWrite writable
  obtain ⟨route, names, name, routed, whole, -, -, named, followed, -⟩ := of_slot slotted placed
  refine ⟨free, name, slot.directory, ?_, follow_eq named followed⟩
  rw [← names_of_route routed, whole, List.getLast?_concat]

theorem walk_concat {names : List String} {start : Place}
    (walked : disk.walk start (names ++ [name]) = .ok place) :
    ∃ directory, follow directory name = .ok place := by
  induction names generalizing start with
  | nil =>
      obtain ⟨_, -, walked⟩ := of_bind_ok walked
      obtain ⟨next, followed, walked⟩ := of_bind_ok walked
      cases walked
      exact ⟨start, followed⟩
  | cons first rest ih =>
      obtain ⟨_, -, walked⟩ := of_bind_ok walked
      obtain ⟨next, -, walked⟩ := of_bind_ok walked
      exact ih walked

theorem place_of_find {path : Path} (last : path.lastName? = some name) (named : isDots name = false)
    (found : disk.find path = .ok (place, node)) : ∃ directory, place = name :: directory := by
  obtain ⟨route, routed, found⟩ := of_bind_ok found
  obtain ⟨goal, walked, found⟩ := of_bind_ok found
  rw [← names_of_route routed] at last
  obtain ⟨names, whole⟩ := List.getLast?_eq_some_iff.mp last
  rw [whole] at walked
  obtain ⟨directory, followed⟩ := walk_concat walked
  have same : place = goal := by
    split at found
    · cases found
    · cases found
      rfl
    · split at found
      · cases found
      · cases found
        rfl
  exact ⟨directory, same.trans (follow_eq named followed)⟩

structure Spares (name : String) (disk other : Disk) : Prop where
  here : other.here = disk.here
  directories : KeepsDirectories disk other
  named : ∀ directory node, disk.node? (name :: directory) = some node →
    other.node? (name :: directory) = some node

theorem Spares.refl (name : String) (disk : Disk) : Spares name disk disk :=
  ⟨rfl, fun _ there => there, fun _ _ there => there⟩

theorem Spares.trans {last : Disk} (first : Spares name disk other)
    (second : Spares name other last) : Spares name disk last :=
  ⟨second.here.trans first.here,
    fun place there => second.directories place (first.directories place there),
    fun directory node there => second.named directory node (first.named directory node there)⟩

theorem Extends.spares (keepsAll : Extends disk other) (name : String) : Spares name disk other :=
  ⟨keepsAll.here, fun place => keepsAll.node? place .directory,
    fun directory => keepsAll.node? (name :: directory)⟩

theorem keepsDirectories_put (free : disk.isDirectoryAt place = false) (node : Node) :
    KeepsDirectories disk (disk.put place node) := by
  intro other there
  refine (node?_put_of_ne ?_).trans there
  rintro rfl
  simp [isDirectoryAt, there] at free

theorem spares_put (free : disk.isDirectoryAt place = false)
    (another : ∀ directory, place ≠ name :: directory) (node : Node) :
    Spares name disk (disk.put place node) := by
  refine ⟨rfl, keepsDirectories_put free node, fun directory kept there => ?_⟩
  exact (node?_put_of_ne (another directory).symm).trans there

theorem contents?_of_spares (spares : Spares name disk other) {path : Path} {contents : ByteArray}
    (last : path.lastName? = some name) (named : isDots name = false)
    (there : disk.contents? path = .ok (some contents)) :
    other.contents? path = .ok (some contents) := by
  obtain ⟨place, found⟩ := find_of_contents? there
  obtain ⟨directory, rfl⟩ := place_of_find last named found
  exact contents?_of_find (find_of_keeps spares.here spares.directories (spares.named directory) found)

theorem spares_copyFile (disk : Disk) (source : Path) {target : Path}
    (another : target.lastName? ≠ some name) :
    Spares name disk (disk.copyFile source target).1 := by
  rcases copyFile_cases disk source target with
    ⟨_, same⟩ | ⟨above, -, ⟨_, kept⟩ | ⟨_, _, goal, -, writable, copied⟩⟩
  · rw [same]
    exact .refl name disk
  · rw [kept]
    exact (makeLineage_extends _ disk _).spares name
  · rw [copied]
    obtain ⟨free, other, directory, last, rfl⟩ := place_of_fileToWrite writable
    refine ((makeLineage_extends _ disk _).spares name).trans (spares_put free ?_ _)
    intro directory same
    exact another (last.trans (congrArg some (List.cons.inj same).1))

theorem node?_erase (inside : place ≠ []) : (disk.erase place).node? place = none := by
  simp [node?, erase, inside, List.find?_filter]

theorem Distinct.mem_children (distinct : disk.Distinct) :
    (name, node) ∈ disk.children place ↔ disk.node? (name :: place) = some node := by
  constructor
  · intro child
    obtain ⟨⟨found, kind⟩, inside, same⟩ := List.mem_filterMap.mp child
    cases found with
    | nil => cases same
    | cons first parent =>
        dsimp only at same
        split at same
        · rename_i here
          subst here
          cases same
          exact distinct.node? (List.cons_ne_nil _ _) inside
        · cases same
  · intro there
    unfold Disk.node? at there
    rw [if_neg (List.cons_ne_nil _ _)] at there
    obtain ⟨⟨found, kind⟩, listed, rfl⟩ := Option.map_eq_some_iff.mp there
    have here : found = name :: place := by simpa using List.find?_some listed
    subst here
    exact List.mem_filterMap.mpr ⟨_, List.mem_of_find?_eq_some listed, by simp⟩

end Disk

namespace Backup
open Disk

variable {disk : Disk} {hindrance : Hindrance} {spared kept : String} {today : Date} {age : Int}
  {place directory : Place} {names : List String}

theorem node?_removeAll : (removeAll disk directory names).node? place =
    if ∃ name ∈ names, place = name :: directory then none else disk.node? place := by
  induction names generalizing disk with
  | nil => simp [removeAll]
  | cons first rest ih =>
      have later : (removeAll disk directory (first :: rest)).node? place = _ :=
        @ih (disk.erase (first :: directory))
      rw [later]
      by_cases here : place = first :: directory
      · subst here
        simp [node?_erase]
      · simp [here, node?_erase_of_ne here]

theorem Distinct.removeAll (distinct : disk.Distinct) (directory : Place) (names : List String) :
    (removeAll disk directory names).Distinct :=
  List.foldlRecOn _ _ distinct fun _ distinct _ _ => distinct.erase _

@[simp] theorem here_removeAll (disk : Disk) (directory : Place) (names : List String) :
    (removeAll disk directory names).here = disk.here := by
  induction names generalizing disk with
  | nil => rfl
  | cons first rest ih => exact ih (disk.erase (first :: directory))

theorem mem_removable (distinct : disk.Distinct) {name : String} :
    name ∈ removable hindrance disk today age directory kept ↔
      (∃ contents, disk.node? (name :: directory) = some (.file contents)) ∧ name ≠ kept ∧
        isExpired today age name = true ∧ hindrance.removal name = none := by
  unfold removable
  rw [List.mem_filterMap]
  constructor
  · rintro ⟨⟨other, node⟩, child, same⟩
    cases node with
    | directory => cases same
    | file contents =>
        dsimp only at same
        split at same
        · rename_i old
          cases same
          simp only [ne_eq, decide_not, Bool.and_eq_true, Bool.not_eq_true', decide_eq_false_iff_not,
            Option.isNone_iff_eq_none] at old
          exact ⟨⟨contents, distinct.mem_children.mp child⟩, old.1.1, old.1.2, old.2⟩
        · cases same
  · rintro ⟨⟨contents, there⟩, another, old, free⟩
    exact ⟨(name, .file contents), distinct.mem_children.mpr there, by simp [another, old, free]⟩

theorem prune_cases (hindrance : Hindrance) (disk : Disk) (today : Date) (age : Int)
    (directory : Path) (kept : String) :
    (prune hindrance disk today age directory kept).1 = disk ∨
      ∃ place, disk.find directory = .ok (place, .directory) ∧ hindrance.listing = none ∧
        (prune hindrance disk today age directory kept).1 =
          removeAll disk place (removable hindrance disk today age place kept) := by
  unfold prune
  split
  · exact .inl rfl
  · exact .inl rfl
  · exact .inl rfl
  · rename_i place listed found
    exact .inr ⟨place, found, listed, rfl⟩

theorem spares_prune (distinct : disk.Distinct) (stays : isExpired today age spared = false)
    (directory : Path) (kept : String) :
    Spares spared disk (prune hindrance disk today age directory kept).1 := by
  rcases prune_cases hindrance disk today age directory kept with same | ⟨place, -, -, removed⟩
  · rw [same]
    exact .refl spared disk
  · rw [removed]
    have left (other : Place) (node : Node) (there : disk.node? other = some node)
        (another : ∀ name ∈ removable hindrance disk today age place kept, other ≠ name :: place) :
        (removeAll disk place
          (removable hindrance disk today age place kept)).node? other = some node := by
      rw [node?_removeAll, if_neg, there]
      rintro ⟨name, inside, same⟩
      exact another name inside same
    refine ⟨here_removeAll disk place _, fun other there => left other _ there ?_,
      fun parent node there => left _ _ there ?_⟩
    · rintro name inside rfl
      obtain ⟨⟨contents, file⟩, -⟩ := (mem_removable distinct).mp inside
      rw [there] at file
      cases file
    · rintro name inside same
      obtain ⟨-, -, old, -⟩ := (mem_removable distinct).mp inside
      rw [← (List.cons.inj same).1, stays] at old
      cases old

theorem distinct_prune (distinct : disk.Distinct) (directory : Path) (kept : String) :
    (prune hindrance disk today age directory kept).1.Distinct := by
  rcases prune_cases hindrance disk today age directory kept with same | ⟨place, -, -, removed⟩
  · rwa [same]
  · rw [removed]
    exact Distinct.removeAll distinct place _

theorem makeDespite_cases (hindrance : Hindrance) (disk : Disk) (ticker : Ticker) (today : Date)
    (clock : Int) {path : Path} (age : Int) {stem : String} (named : path.stem? = some stem) :
    (makeDespite hindrance disk ticker today clock path age).1 = disk ∨ ∃ directory tick,
      let copied := (disk.copyFile path (Path.child directory (name today tick stem))).1
      (makeDespite hindrance disk ticker today clock path age).1 = copied ∨
        ∃ kept, (makeDespite hindrance disk ticker today clock path age).1 =
          (prune hindrance copied today age directory kept).1 := by
  unfold makeDespite
  split
  · exact .inl rfl
  rw [named]
  split
  · rename_i directory same _
    cases same
    refine .inr ⟨directory, (ticker.next clock).2, ?_⟩
    dsimp only
    generalize disk.copyFile path _ = result
    obtain ⟨copied, result⟩ := result
    cases result with
    | error failure => exact .inl rfl
    | ok done =>
        refine .inr ⟨name today (ticker.next clock).2 stem, ?_⟩
        dsimp only
        split <;> rename_i pruned <;> rw [pruned]
  · exact .inl rfl

theorem distinct_makeDespite (distinct : disk.Distinct) (hindrance : Hindrance) (ticker : Ticker)
    (today : Date) (clock : Int) {path : Path} (age : Int) {stem : String}
    (named : path.stem? = some stem) :
    (makeDespite hindrance disk ticker today clock path age).1.Distinct := by
  rcases makeDespite_cases hindrance disk ticker today clock age named with
    same | ⟨directory, tick, same | ⟨_, same⟩⟩
  · rwa [same]
  · rw [same]
    exact distinct.copyFile _ _
  · rw [same]
    exact distinct_prune (distinct.copyFile _ _) _ _

theorem distinct_make (distinct : disk.Distinct) (ticker : Ticker) (now : Instant) {path : Path}
    (days : Int) {stem : String} (named : path.stem? = some stem) :
    (make disk ticker now path days).1.Distinct :=
  distinct_makeDespite distinct _ _ _ _ _ named

theorem spares_make (distinct : disk.Distinct) (ticker : Ticker) (now : Instant) {path : Path}
    (days : Int) {stem : String} (named : path.stem? = some stem) (noSlash : '/' ∉ stem.toList)
    (short : spared.length ≤ stem.length + 5)
    (stays : isExpired now.date (days * day) spared = false) :
    Spares spared disk (make disk ticker now path days).1 := by
  have another (directory : Path) (tick : Int) :
      (Path.child directory (name now.date tick stem)).lastName? ≠ some spared := by
    intro last
    have ends : '.' :: (stem.toList ++ ".json".toList) <:+ (name now.date tick stem).toList :=
      ⟨now.date.underscored ++ '.' :: (toString tick).toList, by simp [name, String.toList_append]⟩
    obtain ⟨longer, same, ends⟩ := Path.lastName?_of_suffix (List.cons_ne_nil _ _)
      (by simp [noSlash]) (ends.trans (Path.suffix_child directory _))
    cases Option.some.inj (same.symm.trans last)
    have length := ends.length_le
    simp only [List.length_append, List.length_cons, String.length_toList] at length
    have json : ".json".length = 5 := rfl
    omega
  rw [make]
  rcases makeDespite_cases noHindrance disk ticker now.date now.milliseconds (days * day) named with
    same | ⟨directory, tick, same | ⟨_, same⟩⟩
  · rw [same]
    exact .refl spared disk
  · rw [same]
    exact spares_copyFile disk path (another directory tick)
  · rw [same]
    exact (spares_copyFile disk path (another directory tick)).trans
      (spares_prune (distinct.copyFile _ _) stays _ _)

end Backup

end Waymark
