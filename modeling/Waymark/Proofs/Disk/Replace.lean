import Waymark.Disk.Replace
import Waymark.Proofs.Outcome
import Waymark.Proofs.Retry
/-!
# Replaced files

Whoever reads a file that was replaced finds the new contents. A replacement that fails leaves what
was on the disk before.
-/

namespace Waymark.Disk

variable {disk other : Disk} {place : Place} {node : Node}

@[simp] theorem node?_root (disk : Disk) : disk.node? [] = some .directory :=
  rfl

theorem node?_put (inside : place ≠ []) : (disk.put place node).node? place = some node := by
  simp [node?, put, inside]

theorem node?_erase_of_ne {source : Place} (apart : place ≠ source) :
    (disk.erase source).node? place = disk.node? place := by
  unfold node? erase
  split
  · rfl
  · rw [List.find?_filter]
    congr 2
    funext entry
    by_cases here : entry.1 = place <;> simp [here, apart]

theorem node?_put_of_ne {target : Place} (apart : place ≠ target) :
    (disk.put target node).node? place = disk.node? place := by
  refine Eq.trans ?_ (node?_erase_of_ne apart)
  unfold node?
  split
  · rfl
  · rw [put, List.find?_cons_of_neg (by simp [Ne.symm apart])]

def KeepsDirectories (disk other : Disk) : Prop :=
  ∀ place, disk.node? place = some .directory → other.node? place = some .directory

theorem enter_ok : disk.enter place = .ok () ↔ disk.node? place = some .directory := by
  unfold enter
  cases disk.node? place with
  | none => simp
  | some node => cases node <;> simp

theorem walk_of_keepsDirectories (keeps : KeepsDirectories disk other) {names : List String}
    {start : Place} (walked : disk.walk start names = .ok place) :
    other.walk start names = .ok place := by
  induction names generalizing start with
  | nil => exact walked
  | cons name rest ih =>
      obtain ⟨_, entered, walked⟩ := of_bind_ok walked
      obtain ⟨next, followed, walked⟩ := of_bind_ok walked
      have there := enter_ok.mpr (keeps start (enter_ok.mp entered))
      simp only [walk, there, followed, bind, Except.bind]
      exact ih walked

theorem walk_append {names : List String} {start directory : Place} {name : String}
    (walked : disk.walk start names = .ok directory) (entered : disk.enter directory = .ok ())
    (followed : follow directory name = .ok place) :
    disk.walk start (names ++ [name]) = .ok place := by
  induction names generalizing start with
  | nil =>
      cases walked
      simp [walk, entered, followed, bind, Except.bind]
  | cons first rest ih =>
      obtain ⟨_, there, walked⟩ := of_bind_ok walked
      obtain ⟨next, onward, walked⟩ := of_bind_ok walked
      simp only [List.cons_append, walk, there, onward, bind, Except.bind]
      exact ih walked

theorem route_eq (same : other.here = disk.here) (path : Path) :
    other.route path = disk.route path := by
  simp only [route, same]

theorem contents?_of_find {path : Path} {contents : ByteArray}
    (found : disk.find path = .ok (place, .file contents)) :
    disk.contents? path = .ok (some contents) := by
  simp [contents?, Disk.contents, found, bind, Except.bind, Retry.run, Retry.runFrom,
    Retry.maximumCalls]

theorem of_slot {path : Path} {slot : Slot} (slotted : disk.slot path = .ok slot)
    (placed : slot.place? = .ok (some place)) :
    ∃ route names name, disk.route path = .ok route ∧ route.names = names ++ [name] ∧
      disk.walk route.start names = .ok slot.directory ∧
      disk.node? slot.directory = some .directory ∧ isDots name = false ∧
      follow slot.directory name = .ok place ∧ slot.endsInSlash = route.endsInSlash := by
  obtain ⟨route, routed, slotted⟩ := of_bind_ok slotted
  split at slotted
  · cases slotted
    cases placed
  · rename_i name last
    obtain ⟨directory, walked, slotted⟩ := of_bind_ok slotted
    obtain ⟨_, entered, slotted⟩ := of_bind_ok slotted
    cases slotted
    obtain ⟨names, whole⟩ := List.getLast?_eq_some_iff.mp last
    rw [whole, List.dropLast_concat] at walked
    cases named : isDots name with
    | true =>
        simp only [Slot.place?, named] at placed
        cases placed
    | false =>
        simp only [Slot.place?, named] at placed
        obtain ⟨found, followed, same⟩ := of_map_ok placed
        cases same
        exact ⟨route, names, name, routed, whole, walked, enter_ok.mp entered, named, followed, rfl⟩

theorem find_put {path : Path} {slot : Slot} {contents : ByteArray}
    (slotted : disk.slot path = .ok slot) (placed : slot.place? = .ok (some place))
    (noSlash : slot.endsInSlash = false) (free : disk.isDirectoryAt place = false)
    (here : other.here = disk.here)
    (keeps : KeepsDirectories disk (other.put place (.file contents))) :
    (other.put place (.file contents)).find path = .ok (place, .file contents) := by
  obtain ⟨route, names, name, routed, whole, walked, entered, -, followed, slash⟩ :=
    of_slot slotted placed
  have inside : place ≠ [] := by
    rintro rfl
    simp [isDirectoryAt] at free
  -- The directories on the way are still there, and the file lies at its end.
  have way : (other.put place (.file contents)).walk route.start route.names = .ok place := by
    rw [whole]
    exact walk_append (walk_of_keepsDirectories keeps walked)
      (enter_ok.mpr (keeps _ entered)) followed
  have routedThere : (other.put place (.file contents)).route path = .ok route :=
    (route_eq here path).trans routed
  rw [slash] at noSlash
  simp only [find, routedThere, way, node?_put inside, bind, Except.bind]
  exact if_neg (Bool.eq_false_iff.mp noSlash)

theorem keepsDirectories_rename {source target : Place} {file : Node} {contents : ByteArray}
    (moved : disk.node? source = some (.file contents)) (free : disk.isDirectoryAt target = false) :
    KeepsDirectories disk ((disk.erase source).put target file) := by
  intro place there
  have notSource : place ≠ source := by
    rintro rfl
    rw [moved] at there
    cases there
  have notTarget : place ≠ target := by
    rintro rfl
    simp [isDirectoryAt, there] at free
  rw [node?_put_of_ne notTarget, node?_erase_of_ne notSource, there]

theorem of_rename {source : Place} {path : Path} (done : disk.rename source path = .ok other) :
    ∃ slot target node, disk.slot path = .ok slot ∧ slot.place? = .ok (some target) ∧
      slot.endsInSlash = false ∧ disk.node? source = some node ∧
      disk.isDirectoryAt target = false ∧ other = (disk.erase source).put target node := by
  obtain ⟨slot, slotted, done⟩ := of_bind_ok done
  obtain ⟨placed, place, done⟩ := of_bind_ok done
  split at done
  · cases done
  · cases done
  · rename_i target node there
    split at done
    · cases done
    rename_i noSlash
    split at done
    · cases done
    rename_i free
    cases done
    exact ⟨slot, target, node, slotted, place, Bool.eq_false_iff.mpr noSlash, there,
      Bool.eq_false_iff.mpr free, rfl⟩

theorem find_rename {source : Place} {path : Path} {contents : ByteArray} {renamed : Disk}
    (moved : disk.node? source = some (.file contents))
    (done : disk.rename source path = .ok renamed) :
    ∃ target, renamed.find path = .ok (target, .file contents) := by
  obtain ⟨slot, target, node, slotted, placed, noSlash, there, free, rfl⟩ := of_rename done
  cases Option.some.inj (there.symm.trans moved)
  exact ⟨target, find_put slotted placed noSlash free rfl (keepsDirectories_rename moved free)⟩

theorem of_retry_ok {α : Type} {outcome : Nat → Except IoFault α} {value : α}
    (ok : (Retry.run outcome).2 = .ok value) : ∃ call, outcome call = .ok value :=
  ⟨_, (Retry.stretch_run outcome).result.symm.trans ok⟩

theorem temporaryPlace_cases {names : List String} {directory : Path}
    (made : disk.temporaryPlace names directory = .ok place) :
    disk.node? place = none ∧ ∃ name ∈ names, ∃ above, place = name :: above := by
  obtain ⟨slot, -, made⟩ := of_bind_ok made
  split at made
  · rename_i found
    cases made
    obtain ⟨name, inside, rfl⟩ := List.mem_map.mp (List.mem_of_find?_eq_some found)
    exact ⟨by simpa using List.find?_some found, name, inside, slot.directory, rfl⟩
  · cases made

structure Replaced (disk : Disk) (source : Place) (path : Path) (contents : ByteArray)
    (course : Course) : Prop where
  filling : ∀ state ∈ course.passed, ∃ portion, state = disk.put source (.file portion)
  done : course.result = .ok () →
    (disk.put source (.file contents)).rename source path = .ok course.disk
  failed : ∀ failure, course.result = .error failure →
    course.disk = (disk.put source (.file contents)).erase source
  renames : course.renames ≤ Retry.maximumCalls

theorem replaced_replaceFrom (amid : Circumstances) (disk : Disk) (source : Place) (path : Path)
    (contents : ByteArray) :
    Replaced disk source path contents (disk.replaceFrom amid source path contents) := by
  have filling : ∀ state ∈ amid.portions.map (fun portion => disk.put source (.file portion)) ++
      [disk.put source (.file .empty)], ∃ portion, state = disk.put source (.file portion) := by
    intro state inside
    rcases List.mem_append.mp inside with held | empty
    · obtain ⟨portion, -, rfl⟩ := List.mem_map.mp held
      exact ⟨portion, rfl⟩
    · exact ⟨_, List.mem_singleton.mp empty⟩
  have filled := List.forall_mem_cons.mpr ⟨⟨contents, rfl⟩, filling⟩
  unfold replaceFrom
  dsimp only
  split
  · exact ⟨filling, nofun, fun _ _ => rfl, Nat.zero_le _⟩
  · exact ⟨filled, nofun, fun _ _ => rfl, Nat.zero_le _⟩
  · have few : (renameAttempts amid.trouble (disk.put source (.file contents)) source path).1 ≤
        Retry.maximumCalls := (Retry.stretch_run _).limited
    split
    · rename_i moved
      rw [moved] at few
      refine ⟨filled, fun _ => ?_, nofun, few⟩
      obtain ⟨attempt, renamed⟩ := of_retry_ok (congrArg Prod.snd moved)
      obtain ⟨_, -, renamed⟩ := of_bind_ok renamed
      exact renamed
    · rename_i moved
      rw [moved] at few
      exact ⟨filled, nofun, fun _ _ => rfl, few⟩

theorem contents?_replaceAmid {amid : Circumstances} {path : Path} {contents : ByteArray}
    (ok : (replaceAmid amid disk path contents).result = .ok ()) :
    (replaceAmid amid disk path contents).disk.contents? path = .ok (some contents) := by
  unfold replaceAmid at ok ⊢
  dsimp only at ok ⊢
  split at ok
  · cases ok
  · split at ok
    · cases ok
    · split at ok
      · cases ok
      · cases ok
      · rename_i source _ placed
        have renamed := (replaced_replaceFrom _ _ source path contents).done ok
        obtain ⟨-, name, -, above, rfl⟩ := temporaryPlace_cases placed
        obtain ⟨target, found⟩ := find_rename (node?_put (List.cons_ne_nil name above)) renamed
        exact contents?_of_find found

theorem contents?_replace {path : Path} {contents : ByteArray}
    (ok : disk.replace path contents = (other, .ok ())) :
    other.contents? path = .ok (some contents) := by
  obtain ⟨same, result⟩ := Prod.mk.inj ok
  exact same ▸ contents?_replaceAmid result

structure Extends (disk other : Disk) : Prop where
  here : other.here = disk.here
  node? : ∀ place node, disk.node? place = some node → other.node? place = some node

theorem Extends.refl (disk : Disk) : Extends disk disk where
  here := rfl
  node? := fun _ _ there => there

theorem Extends.trans {last : Disk} (first : Extends disk other) (second : Extends other last) :
    Extends disk last where
  here := second.here.trans first.here
  node? := fun place node there => second.node? place node (first.node? place node there)

/-- Whatever else changes, a path that was found is found while the directories stay. -/
theorem find_of_keeps (here : other.here = disk.here) (keeps : KeepsDirectories disk other)
    {path : Path} {found : Place × Node}
    (stays : ∀ node, disk.node? found.1 = some node → other.node? found.1 = some node)
    (ok : disk.find path = .ok found) : other.find path = .ok found := by
  obtain ⟨route, routed, ok⟩ := of_bind_ok ok
  obtain ⟨place, walked, ok⟩ := of_bind_ok ok
  have routedThere := (route_eq here path).trans routed
  have walkedThere := walk_of_keepsDirectories keeps walked
  simp only [find, routedThere, walkedThere, bind, Except.bind]
  cases node : disk.node? place with
  | none => simp [node] at ok
  | some kind =>
      rw [node] at ok
      have same : found.1 = place := by
        cases kind with
        | directory =>
            cases ok
            rfl
        | file contents =>
            simp only at ok
            split at ok
            · cases ok
            · cases ok
              rfl
      rw [same] at stays
      rw [stays kind node]
      exact ok

theorem find_of_extends (keepsAll : Extends disk other) {path : Path} {found : Place × Node}
    (ok : disk.find path = .ok found) : other.find path = .ok found :=
  find_of_keeps keepsAll.here (fun place => keepsAll.node? place .directory)
    (keepsAll.node? found.1) ok

theorem find_of_contents? {path : Path} {contents : ByteArray}
    (ok : disk.contents? path = .ok (some contents)) :
    ∃ place, disk.find path = .ok (place, .file contents) := by
  unfold contents? at ok
  dsimp only at ok
  split at ok
  · rename_i outcome
    cases ok
    obtain ⟨_, same⟩ := of_retry_ok outcome
    split at same
    · rename_i read
      cases same
      obtain ⟨found, ok, taken⟩ := of_bind_ok read
      split at taken
      · cases taken
        exact ⟨_, ok⟩
      · cases taken
    · cases same
    · cases same
  · cases ok

theorem contents?_of_extends (keepsAll : Extends disk other) {path : Path} {contents : ByteArray}
    (ok : disk.contents? path = .ok (some contents)) :
    other.contents? path = .ok (some contents) := by
  obtain ⟨place, found⟩ := find_of_contents? ok
  exact contents?_of_find (find_of_extends keepsAll found)

theorem extends_put (free : disk.node? place = none) (node : Node) :
    Extends disk (disk.put place node) where
  here := rfl
  node? := by
    intro other kind there
    have apart : other ≠ place := by
      rintro rfl
      rw [free] at there
      cases there
    rw [node?_put_of_ne apart, there]

theorem extends_erase_put (free : disk.node? place = none) (node : Node) :
    Extends disk ((disk.put place node).erase place) where
  here := rfl
  node? := by
    intro other kind there
    have apart : other ≠ place := by
      rintro rfl
      rw [free] at there
      cases there
    rw [node?_erase_of_ne apart, node?_put_of_ne apart, there]

theorem of_makeDirectory {path : Path} (made : disk.makeDirectory path = .ok other) :
    ∃ slot place, disk.slot path = .ok slot ∧ slot.place? = .ok (some place) ∧
      disk.node? place = none ∧ other = disk.put place .directory := by
  obtain ⟨slot, slotted, made⟩ := of_bind_ok made
  obtain ⟨target, placed, made⟩ := of_bind_ok made
  cases target with
  | none => cases made
  | some place =>
      simp only at made
      split at made
      · cases made
      · rename_i free
        cases made
        exact ⟨slot, place, slotted, placed, free, rfl⟩

theorem makeDirectory_extends {path : Path} (made : disk.makeDirectory path = .ok other) :
    Extends disk other := by
  obtain ⟨-, place, -, -, free, rfl⟩ := of_makeDirectory made
  exact extends_put free .directory

theorem of_tryDirectory {refusals : Refusals} {path : Path} {isAgain : Bool}
    (made : disk.tryDirectory refusals path isAgain = .ok other) :
    disk.makeDirectory path = .ok other := by
  unfold tryDirectory at made
  split at made
  · cases made
  · exact made

theorem makeLineage_keeps {holds : Disk → Prop} (refusals : Refusals) {paths : List Path}
    (step : ∀ path ∈ paths, ∀ state made, holds state → state.makeDirectory path = .ok made →
      holds made) (start : holds disk) :
    (∀ state ∈ (disk.makeLineage refusals paths).passed, holds state) ∧
      holds (disk.makeLineage refusals paths).disk := by
  induction paths with
  | nil => exact ⟨by simp [makeLineage], start⟩
  | cons path ancestors ih =>
      obtain ⟨here, there⟩ := List.forall_mem_cons.mp step
      obtain ⟨passed, above⟩ := ih there
      unfold makeLineage
      split
      · rename_i made
        exact ⟨by simpa using start, here _ _ start (of_tryDirectory made)⟩
      · dsimp only
        split
        · exact ⟨passed, above⟩
        · split
          · rename_i complete
            exact ⟨List.forall_mem_cons.mpr ⟨above, passed⟩,
              here _ _ above (of_tryDirectory complete)⟩
          · exact ⟨passed, above⟩
      · exact ⟨by simp, start⟩

theorem makeLineage_extends (refusals : Refusals) (disk : Disk) (paths : List Path) :
    Extends disk (disk.makeLineage refusals paths).disk :=
  (makeLineage_keeps refusals (fun _ _ _ _ kept made => kept.trans (makeDirectory_extends made))
    (.refl disk)).2

theorem replaceAmid_extends {amid : Circumstances} {path : Path} {contents : ByteArray}
    {failure : Failure} (failed : (replaceAmid amid disk path contents).result = .error failure) :
    Extends disk (replaceAmid amid disk path contents).disk := by
  unfold replaceAmid at failed ⊢
  split
  · exact .refl disk
  · rename_i directory routed
    have made := makeLineage_extends (amid.trouble <| .makeDirectory · ·) disk
      (lineage (directory.text.length + 1) directory)
    rw [← making] at made
    simp only [routed] at failed
    dsimp only
    split
    · exact made
    · rename_i complete
      simp only [complete] at failed
      split
      · exact made
      · exact made
      · rename_i source passed placed
        simp only [passed, placed] at failed
        dsimp only
        rw [(replaced_replaceFrom _ _ source path contents).failed failure failed]
        exact made.trans (extends_erase_put (temporaryPlace_cases placed).1 _)

end Waymark.Disk
