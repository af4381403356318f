import Waymark.Proofs.Disk.Ways
/-!
# Atomic replacement

Whenever a file is replaced, and whatever goes wrong, its place holds what it held before or, in the
end, the new contents.
-/

namespace Waymark.Disk

variable {disk other : Disk} {path : Path} {source place : Place} {contents : ByteArray}
  {amid : Circumstances}

theorem goal_eq (same : other.here = disk.here) (path : Path) :
    other.goal path = disk.goal path := by
  rw [goal, goal, origin_eq same]

theorem node?_erase_put (free : disk.node? source = none) (node : Node) :
    ((disk.put source node).erase source).node? place = disk.node? place := by
  by_cases here : place = source
  · subst here
    have inside : place ≠ [] := by
      rintro rfl
      cases free
    rw [node?_erase inside, free]
  · rw [node?_erase_of_ne here, node?_put_of_ne here]

theorem rename_cases (moved : disk.rename source path = .ok other) :
    ∃ node, disk.node? source = some node ∧ disk.goal path ≠ [] ∧
      other = (disk.erase source).put (disk.goal path) node := by
  obtain ⟨slot, target, node, slotted, placed, -, there, -, rfl⟩ := of_rename moved
  obtain ⟨goal, _, name, -, -, -, whole⟩ := place_of_slot slotted placed
  rw [goal]
  exact ⟨node, there, whole ▸ List.cons_ne_nil _ _, rfl⟩

/-- The way to the directory of a path does not lead through the goal of the path, or not as long as
nothing is there. -/
def Clear (disk : Disk) (path : Path) : Prop :=
  ∀ directory, directoryOf path = .ok directory → disk.LeadsThrough directory (disk.goal path) →
    disk.node? (disk.goal path) ≠ none

theorem length_lead {names : List String} (noUp : ".." ∉ names) :
    (lead place names).length = place.length + names.countP (· ≠ ".") := by
  induction names generalizing place with
  | nil => rfl
  | cons name rest ih =>
      simp only [List.mem_cons, not_or] at noUp
      obtain ⟨notUp, later⟩ := noUp
      have next := @ih (step place name) later
      rw [lead, List.foldl_cons, ← lead, next]
      by_cases dot : name = "."
      · simp [step, dot]
      · simp [step, dot, Ne.symm notUp]
        omega

theorem clear_of_noUp {name : String} (named : path.fileName? = some name)
    (noUp : ".." ∉ path.names) (disk : Disk) : Clear disk path := by
  intro directory upper through
  obtain ⟨parent, before, after, above, -, names, notDot, -⟩ := Path.names_of_fileName named
  obtain ⟨parent', above', absolute, same⟩ := directoryOf_cases upper
  cases Option.some.inj (above'.symm.trans above)
  obtain ⟨first, within, led⟩ := through
  have depth : (disk.goal path).length = (disk.origin path).length + path.names.countP (· ≠ ".") :=
    length_lead noUp
  have deeper : parent.names.countP (· ≠ ".") < path.names.countP (· ≠ ".") := by
    rw [names, List.countP_append, List.countP_append,
      List.countP_cons_of_pos (by simpa using notDot)]
    omega
  rw [← led, origin_eq_of_isAbsolute absolute] at depth
  rcases same with rfl | ⟨-, dots⟩
  · have short := within.sublist.countP_le (p := (· ≠ "."))
    have noUp : ".." ∉ first := fun up =>
      noUp (names ▸ List.mem_append_left _ (List.mem_append_left _ (within.subset up)))
    rw [length_lead noUp] at depth
    omega
  · rw [lead_dots fun name inside => dots name (within.subset inside)] at depth
    omega

/-- A replacement leaves its goal as it was, or in the end with the new contents. All else stays,
and directories on the way may be made. -/
structure Atomic (amid : Circumstances) (disk : Disk) (path : Path) (contents : ByteArray)
    (course : Course) : Prop where
  kept : ∀ state ∈ course.passed, Extends disk state
  passed : (disk.node? (disk.goal path) = none →
      ∀ name ∈ amid.names, (disk.goal path).head? ≠ some name) →
    ∀ state ∈ course.passed, state.node? (disk.goal path) = disk.node? (disk.goal path)
  done : course.result = .ok () → course.disk.node? (disk.goal path) = some (.file contents) ∧
    course.disk.contents? path = .ok (some contents)
  failed : ∀ failure, course.result = .error failure →
    course.disk.node? (disk.goal path) = disk.node? (disk.goal path)
  others : ∀ place, place ≠ disk.goal path → course.disk.node? place = disk.node? place ∨
    disk.node? place = none ∧ course.disk.node? place = some .directory ∧
      ∃ directory, directoryOf path = .ok directory ∧ disk.LeadsThrough directory place
  renames : course.renames ≤ 10

variable {directory : Path}

theorem Paved.node?_goal (clear : Clear disk path) (upper : directoryOf path = .ok directory)
    (paved : Paved disk directory other) :
    other.node? (disk.goal path) = disk.node? (disk.goal path) := by
  rcases paved.node? (disk.goal path) with same | ⟨missing, -, through⟩
  · exact same
  · exact absurd missing (clear directory upper through)

theorem atomic_of_paved (clear : Clear disk path) (upper : directoryOf path = .ok directory)
    {passed : List Disk} (states : ∀ state ∈ passed, Paved disk directory state)
    (last : Paved disk directory other) (failure : Failure) :
    Atomic amid disk path contents ⟨passed, other, .error failure, 0⟩ where
  kept := fun state inside => (states state inside).extends
  passed := fun _ state inside => (states state inside).node?_goal clear upper
  done := nofun
  failed := fun _ _ => last.node?_goal clear upper
  others := fun place _ => (last.node? place).imp_right fun ⟨missing, made, through⟩ =>
    ⟨missing, made, directory, upper, through⟩
  renames := Nat.zero_le _

theorem atomic_of_replaced {course : Course} {made : Disk} {passed : List Disk}
    (clear : Clear disk path) (upper : directoryOf path = .ok directory)
    (states : ∀ state ∈ passed, Paved disk directory state) (paved : Paved disk directory made)
    (placed : made.temporaryPlace amid.names directory = .ok source)
    (replaced : Replaced made source path contents course)
    (read : course.result = .ok () → course.disk.contents? path = .ok (some contents)) :
    Atomic amid disk path contents { course with passed := course.passed ++ made :: passed } := by
  obtain ⟨free, name, tried, above, rfl⟩ := temporaryPlace_cases placed
  have before := List.forall_mem_cons.mpr ⟨paved, states⟩
  have moved (ok : course.result = .ok ()) : course.disk =
      ((made.put (name :: above) (.file contents)).erase (name :: above)).put (disk.goal path)
        (.file contents) ∧
        disk.goal path ≠ [] := by
    obtain ⟨node, there, below, same⟩ := rename_cases (replaced.done ok)
    cases Option.some.inj ((node?_put (List.cons_ne_nil name above)).symm.trans there)
    have goal : (made.put (name :: above) (.file contents)).goal path = disk.goal path :=
      goal_eq paved.here path
    rw [goal] at below same
    exact ⟨same, below⟩
  have others {place : Place} (same : course.disk.node? place = made.node? place) :
      course.disk.node? place = disk.node? place ∨ disk.node? place = none ∧
        course.disk.node? place = some .directory ∧
        ∃ directory, directoryOf path = .ok directory ∧ disk.LeadsThrough directory place := by
    rw [same]
    exact (paved.node? place).imp_right fun ⟨missing, made, through⟩ =>
      ⟨missing, made, directory, upper, through⟩
  refine ⟨?_, ?_, ?_, ?_, ?_, replaced.renames⟩
  · intro state inside
    rcases List.mem_append.mp inside with filling | making
    · obtain ⟨portion, rfl⟩ := replaced.filling state filling
      exact paved.extends.trans (extends_put free _)
    · exact (before state making).extends
  · intro apart state inside
    rcases List.mem_append.mp inside with filling | making
    · obtain ⟨portion, rfl⟩ := replaced.filling state filling
      rw [← paved.node?_goal clear upper]
      refine node?_put_of_ne fun same => ?_
      rw [← same] at free
      exact apart ((paved.node?_goal clear upper).symm.trans free) name tried (same ▸ rfl)
    · exact (before state making).node?_goal clear upper
  · intro ok
    refine ⟨?_, read ok⟩
    dsimp only
    obtain ⟨same, below⟩ := moved ok
    rw [same]
    exact node?_put below
  · intro failure failed
    dsimp only
    rw [replaced.failed failure failed, node?_erase_put free]
    exact paved.node?_goal clear upper
  · intro place apart
    cases result : course.result with
    | error failure =>
        exact others (by rw [replaced.failed failure result, node?_erase_put free])
    | ok done =>
        exact others (by rw [(moved result).1, node?_put_of_ne apart, node?_erase_put free])

/-- Whatever fails and wherever, a file is replaced at once or not at all, unless the way to its
directory leads through the file itself. -/
theorem replaceAmid_atomic (clear : Clear disk path) (amid : Circumstances) (contents : ByteArray) :
    Atomic amid disk path contents (disk.replaceAmid amid path contents) := by
  have read := @contents?_replaceAmid disk amid path contents
  unfold replaceAmid at read ⊢
  cases upper : directoryOf path with
  | error failure =>
      exact ⟨nofun, fun _ => nofun, nofun, fun _ _ => rfl, fun _ _ => .inl rfl, Nat.zero_le _⟩
  | ok directory =>
      obtain ⟨states, paved⟩ := making_paves (amid.trouble <| .makeDirectory · ·) disk directory
      simp only [upper] at read
      dsimp only
      split
      · exact atomic_of_paved clear upper states paved _
      · rename_i complete
        simp only [complete] at read
        split
        · exact atomic_of_paved clear upper states paved _
        · exact atomic_of_paved clear upper states paved _
        · rename_i source passed placed
          simp only [passed, placed] at read
          exact atomic_of_replaced clear upper states paved placed
            (replaced_replaceFrom amid _ source path contents) read

def overItself : Course :=
  replaceAmid ⟨noTrouble, temporaryNames, []⟩ ⟨[], []⟩ ⟨"a/../a"⟩ ⟨#[7]⟩

def underItsName : Course :=
  replaceAmid ⟨noTrouble, [".tmpabcdef"], []⟩ ⟨[], []⟩ ⟨".tmpabcdef"⟩ ⟨#[7]⟩

theorem replaceAmid_not_atomic :
    (contents? ⟨[], []⟩ ⟨"a/../a"⟩ = .ok none ∧
      overItself.result = .error (.persist ⟨"a/../a"⟩ .isADirectory) ∧
      overItself.disk.contents? ⟨"a/../a"⟩ = .error (.io .isADirectory)) ∧
    contents? ⟨[], []⟩ ⟨".tmpabcdef"⟩ = .ok none ∧
      ∃ state ∈ underItsName.passed, state.contents? ⟨".tmpabcdef"⟩ = .ok (some .empty) := by
  refine ⟨⟨rfl, rfl, rfl⟩, rfl, put ⟨[], []⟩ [".tmpabcdef"] (.file .empty), ?_, rfl⟩
  exact List.mem_cons_of_mem _ List.mem_cons_self

theorem replaceAmid_atomic_missing :
    Clear ⟨[], []⟩ ⟨"d/a.json"⟩ ∧
      contents? (replaceAmid ⟨noTrouble, temporaryNames, [⟨#[7]⟩]⟩ ⟨[], []⟩ ⟨"d/a.json"⟩
        ⟨#[7, 8]⟩).disk ⟨"d/a.json"⟩ = .ok (some ⟨#[7, 8]⟩) := by
  have clear : Clear ⟨[], []⟩ ⟨"d/a.json"⟩ :=
    clear_of_noUp (by decide : Path.fileName? ⟨"d/a.json"⟩ = some "a.json") (by decide) _
  have atomic := replaceAmid_atomic clear ⟨noTrouble, temporaryNames, [⟨#[7]⟩]⟩ ⟨#[7, 8]⟩
  exact ⟨clear, (atomic.done rfl).2⟩

end Waymark.Disk
