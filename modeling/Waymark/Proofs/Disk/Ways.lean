import Waymark.Proofs.Disk.Spared
import Waymark.Proofs.Path.Parents
/-!
# The ways of paths

The names of a path lead from place to place, whatever is there. A request to make the directories
of a path makes none but those on its way.
-/

namespace Waymark.Disk

variable {disk other : Disk} {place start : Place} {names : List String}

def step (place : Place) (name : String) : Place :=
  if name = "." then place else if name = ".." then place.tail else name :: place

def lead (place : Place) (names : List String) : Place :=
  names.foldl step place

theorem lead_append (place : Place) (first second : List String) :
    lead place (first ++ second) = lead (lead place first) second :=
  List.foldl_append

theorem step_of_follow {name : String} {next : Place} (followed : follow place name = .ok next) :
    step place name = next := by
  unfold follow at followed
  unfold step
  split
  · rename_i dot
    exact Except.ok.inj ((if_pos dot).symm.trans followed)
  rename_i notDot
  rw [if_neg notDot] at followed
  split
  · rename_i up
    exact Except.ok.inj ((if_pos up).symm.trans followed)
  rename_i notUp
  rw [if_neg notUp] at followed
  split at followed
  · cases followed
  · exact Except.ok.inj followed

theorem walk_append_ok {first second : List String} :
    disk.walk start (first ++ second) = .ok place ↔
      ∃ middle, disk.walk start first = .ok middle ∧ disk.walk middle second = .ok place := by
  induction first generalizing start with
  | nil => simp [walk]
  | cons name rest ih =>
      simp only [List.cons_append, walk]
      cases disk.enter start with
      | error fault => simp [bind, Except.bind]
      | ok _ =>
          cases follow start name with
          | error fault => simp [bind, Except.bind]
          | ok next => simpa [bind, Except.bind] using ih

theorem lead_of_walk (walked : disk.walk start names = .ok place) : lead start names = place := by
  induction names generalizing start with
  | nil => simpa [walk, lead] using walked
  | cons name rest ih =>
      obtain ⟨_, -, walked⟩ := of_bind_ok walked
      obtain ⟨next, followed, walked⟩ := of_bind_ok walked
      exact (congrArg (lead · rest) (step_of_follow followed)).trans (ih walked)

theorem isDirectory_of_walk {names rest : List String} (left : rest ≠ [])
    (walked : disk.walk start (names ++ rest) = .ok place) :
    disk.node? (lead start names) = some .directory := by
  obtain ⟨middle, first, second⟩ := walk_append_ok.mp walked
  rw [lead_of_walk first]
  cases rest with
  | nil => exact absurd rfl left
  | cons name others =>
      obtain ⟨_, entered, -⟩ := of_bind_ok second
      exact enter_ok.mp entered

theorem lead_dots {names : List String} (dots : ∀ name ∈ names, name = ".") :
    lead place names = place := by
  induction names with
  | nil => rfl
  | cons name rest ih =>
      obtain ⟨rfl, later⟩ := List.forall_mem_cons.mp dots
      exact ih later

theorem lead_concat {names : List String} {name : String} (notDot : name ≠ ".")
    (notUp : name ≠ "..") : lead place (names ++ [name]) = name :: lead place names := by
  simp [lead, step, notDot, notUp]

def origin (disk : Disk) (path : Path) : Place :=
  if path.isAbsolute then [] else disk.here

/-- The places that a path leads through, if all of them are there. Its goal is the last one. -/
def LeadsThrough (disk : Disk) (path : Path) (place : Place) : Prop :=
  ∃ names, names <+: path.names ∧ lead (disk.origin path) names = place

def goal (disk : Disk) (path : Path) : Place :=
  lead (disk.origin path) path.names

theorem origin_eq {path : Path} (same : other.here = disk.here) :
    other.origin path = disk.origin path := by
  unfold origin
  rw [same]

theorem origin_eq_of_isAbsolute {path other : Path} (same : path.isAbsolute = other.isAbsolute) :
    disk.origin path = disk.origin other := by
  unfold origin
  rw [same]

theorem goal_child {name : String} (noSlash : '/' ∉ name.toList) (nonempty : name.toList ≠ [])
    (notDot : name ≠ ".") (notUp : name ≠ "..") (path : Path) :
    disk.goal (path.child name) = name :: disk.goal path := by
  obtain ⟨names, absolute⟩ := Path.names_child noSlash nonempty path
  rw [goal, names, lead_concat notDot notUp, origin_eq_of_isAbsolute absolute, goal]

theorem LeadsThrough.of_here {path : Path} (through : other.LeadsThrough path place)
    (same : other.here = disk.here) : disk.LeadsThrough path place := by
  obtain ⟨names, first, led⟩ := through
  exact ⟨names, first, origin_eq same ▸ led⟩

theorem LeadsThrough.of_parent {path parent : Path} (above : path.parent? = some parent)
    (through : disk.LeadsThrough parent place) : disk.LeadsThrough path place := by
  obtain ⟨absolute, rest, -, names⟩ := Path.names_of_parent above
  obtain ⟨first, within, led⟩ := through
  refine ⟨first, names ▸ within.trans (List.prefix_append _ _), ?_⟩
  unfold origin at led ⊢
  rwa [← absolute]

theorem directoryOf_cases {path directory : Path} (upper : directoryOf path = .ok directory) :
    ∃ parent, path.parent? = some parent ∧ directory.isAbsolute = path.isAbsolute ∧
      (directory = parent ∨ parent.names = [] ∧ ∀ name ∈ directory.names, name = ".") := by
  unfold directoryOf at upper
  split at upper
  · cases upper
  · rename_i parent above
    obtain ⟨absolute, -⟩ := Path.names_of_parent above
    cases upper
    refine ⟨parent, above, ?_⟩
    split
    · rename_i empty
      have empty : parent = ⟨""⟩ := congrArg Path.mk (String.isEmpty_iff.mp empty)
      subst empty
      exact ⟨absolute, .inr ⟨rfl, by decide⟩⟩
    · exact ⟨absolute, .inl rfl⟩

theorem LeadsThrough.of_directoryOf {path directory : Path}
    (upper : directoryOf path = .ok directory) (through : disk.LeadsThrough directory place) :
    ∃ names, names <+: path.names ∧ names ≠ path.names ∧ lead (disk.origin path) names = place := by
  obtain ⟨parent, above, absolute, same⟩ := directoryOf_cases upper
  obtain ⟨-, rest, left, names⟩ := Path.names_of_parent above
  obtain ⟨first, within, led⟩ := through
  rw [origin_eq_of_isAbsolute absolute] at led
  rcases same with rfl | ⟨-, dots⟩
  · refine ⟨first, names ▸ within.trans (List.prefix_append _ _), fun same => ?_, led⟩
    have short := within.length_le
    rw [same, names, List.length_append] at short
    exact left (List.length_eq_zero_iff.mp (by omega))
  · rw [lead_dots fun name inside => dots name (within.subset inside)] at led
    refine ⟨[], List.nil_prefix, ?_, led⟩
    rw [names]
    exact (List.append_ne_nil_of_right_ne_nil _ left).symm

theorem LeadsThrough.of_lineage {depth : Nat} {path ancestor : Path}
    (above : ancestor ∈ lineage depth path) (through : disk.LeadsThrough ancestor place) :
    disk.LeadsThrough path place := by
  induction depth generalizing path with
  | zero => cases above
  | succ depth ih =>
      unfold lineage at above
      split at above
      · rename_i parent next
        rcases List.mem_cons.mp above with rfl | later
        · exact through
        · exact (ih later).of_parent next
      · cases above

theorem route_cases {path : Path} {route : Route} (routed : disk.route path = .ok route) :
    route.start = disk.origin path ∧ route.names = path.names := by
  unfold Disk.route at routed
  dsimp only at routed
  split at routed
  · cases routed
  split at routed
  · cases routed
  split at routed
  · cases routed
  · cases routed
    exact ⟨rfl, rfl⟩

theorem route_of_longer {path longer : Path} {route : Route}
    (routed : disk.route longer = .ok route) (nonempty : path.text ≠ "") {more : String}
    (whole : longer.text = path.text ++ more) :
    ∃ shorter, disk.route path = .ok shorter := by
  unfold Disk.route at routed ⊢
  dsimp only at routed ⊢
  split at routed
  · cases routed
  rename_i plain
  split at routed
  · cases routed
  split at routed
  · cases routed
  rename_i short
  have plain' : '\x00' ∉ path.text.toList := by
    simp only [whole, String.toList_append, List.contains_eq_mem, List.mem_append,
      decide_eq_true_eq, not_or] at plain
    exact plain.1
  have short' : ¬ 4096 ≤ path.text.utf8ByteSize := by
    rw [whole, String.utf8ByteSize_append] at short
    omega
  simp [plain', nonempty, short']

theorem goal_of_find {path : Path} {node : Node} (found : disk.find path = .ok (place, node)) :
    disk.goal path = place ∧ disk.walk (disk.origin path) path.names = .ok place ∧
      disk.node? place = some node := by
  obtain ⟨route, routed, found⟩ := of_bind_ok found
  obtain ⟨goal, walked, found⟩ := of_bind_ok found
  obtain ⟨start, names⟩ := route_cases routed
  rw [start, names] at walked
  have same : goal = place ∧ disk.node? goal = some node := by
    split at found
    · cases found
    · cases found
      exact ⟨rfl, ‹_›⟩
    · split at found
      · cases found
      · cases found
        exact ⟨rfl, ‹_›⟩
  exact ⟨(lead_of_walk walked).trans same.1, same.1 ▸ walked, same.1 ▸ same.2⟩

theorem find_of_walk {path : Path} {route : Route} (routed : disk.route path = .ok route)
    (walked : disk.walk (disk.origin path) path.names = .ok place)
    (there : disk.node? place = some .directory) : disk.find path = .ok (place, .directory) := by
  obtain ⟨start, names⟩ := route_cases routed
  simp only [find, routed, start, names, walked, there, bind, Except.bind]

theorem contents_of_find {path : Path} {contents : ByteArray}
    (found : disk.find path = .ok (place, .file contents)) : disk.contents path = .ok contents := by
  simp [Disk.contents, found, bind, Except.bind]

theorem place_of_slot {path : Path} {slot : Slot} (slotted : disk.slot path = .ok slot)
    (placed : slot.place? = .ok (some place)) :
    disk.goal path = place ∧ ∃ names name, path.names = names ++ [name] ∧
      disk.walk (disk.origin path) names = .ok slot.directory ∧
      disk.node? slot.directory = some .directory ∧ place = name :: slot.directory := by
  obtain ⟨route, names, name, routed, whole, walked, entered, named, followed, -⟩ :=
    of_slot slotted placed
  obtain ⟨start, same⟩ := route_cases routed
  rw [start] at walked
  rw [same] at whole
  refine ⟨?_, names, name, whole, walked, entered, follow_eq named followed⟩
  rw [goal, whole, lead_append, lead_of_walk walked]
  exact step_of_follow followed

theorem makeDirectory_cases {path : Path} (made : disk.makeDirectory path = .ok other) :
    ∃ place, disk.LeadsThrough path place ∧ disk.node? place = none ∧
      other = disk.put place .directory := by
  obtain ⟨slot, place, slotted, placed, free, rfl⟩ := of_makeDirectory made
  exact ⟨place, ⟨path.names, List.prefix_refl _, (place_of_slot slotted placed).1⟩, free, rfl⟩

structure Paved (disk : Disk) (path : Path) (other : Disk) : Prop where
  here : other.here = disk.here
  node? : ∀ place, other.node? place = disk.node? place ∨
    disk.node? place = none ∧ other.node? place = some .directory ∧ disk.LeadsThrough path place

theorem Paved.refl (disk : Disk) (path : Path) : Paved disk path disk :=
  ⟨rfl, fun _ => .inl rfl⟩

theorem Paved.extends {path : Path} (paved : Paved disk path other) : Extends disk other where
  here := paved.here
  node? := by
    intro place node there
    rcases paved.node? place with same | ⟨free, -⟩
    · exact same.trans there
    · rw [free] at there
      cases there

theorem Paved.put {path : Path} (paved : Paved disk path other)
    (through : disk.LeadsThrough path place) (free : other.node? place = none)
    (inside : place ≠ []) :
    Paved disk path (other.put place .directory) where
  here := paved.here
  node? := by
    intro another
    by_cases here : another = place
    · subst here
      refine .inr ⟨?_, node?_put inside, through⟩
      rcases paved.node? another with same | ⟨-, made, -⟩
      · exact same.symm.trans free
      · rw [free] at made
        cases made
    · rw [node?_put_of_ne here]
      exact paved.node? another

theorem making_paves (refusals : Refusals) (disk : Disk) (path : Path) :
    (∀ state ∈ (disk.making refusals path).passed, Paved disk path state) ∧
      Paved disk path (disk.making refusals path).disk := by
  refine makeLineage_keeps refusals ?_ (.refl disk path)
  intro ancestor above state made paved ok
  obtain ⟨place, through, free, rfl⟩ := makeDirectory_cases ok
  refine paved.put ((through.of_here paved.here).of_lineage above) free ?_
  rintro rfl
  cases free

theorem copyFile_ok {source target : Path} (done : disk.copyFile source target = (other, .ok ())) :
    ∃ directory place contents goal made, directoryOf target = .ok directory ∧
      Paved disk directory made ∧ made.find source = .ok (place, .file contents) ∧
      made.fileToWrite target = .ok goal ∧
      other = made.put goal (.file (if goal = place then .empty else contents)) := by
  rcases copyFile_cases disk source target with
    ⟨_, same⟩ | ⟨directory, upper, ⟨_, kept⟩ | ⟨place, contents, goal, found, writable, copied⟩⟩
  · cases same.symm.trans done
  · cases kept.symm.trans done
  · cases copied.symm.trans done
    exact ⟨directory, place, contents, goal, _, upper, (making_paves _ disk directory).2, found,
      writable, rfl⟩

theorem extends_of_copyFile_error {source target : Path} {failure : Failure}
    (failed : disk.copyFile source target = (other, .error failure)) : Extends disk other := by
  rcases copyFile_cases disk source target with
    ⟨_, same⟩ | ⟨directory, -, ⟨_, kept⟩ | ⟨_, _, _, -, -, copied⟩⟩
  · cases same.symm.trans failed
    exact .refl disk
  · cases kept.symm.trans failed
    exact (making_paves _ disk directory).2.extends
  · cases copied.symm.trans failed

end Waymark.Disk
