import Waymark.Proofs.Json.Converted
import Waymark.Proofs.Key.Distinct
import Waymark.Proofs.Settings.Deferred
import Waymark.Proofs.Settings.Texts
/-!
# Shortcuts as a map

The shortcuts of the settings bind commands to keys. To bind a command replaces all spellings of it
and leaves the other commands and the other settings alone, whatever the document held before.
-/

namespace Waymark

open Json

namespace Json

variable {α : Type} {name : String} {value : α} {members : List (String × α)}
  {keeps : String × α → Bool}

theorem filter_insertMember_of_dropped (dropped : keeps (name, value) = false)
    (new : ∀ member ∈ members, member.1 ≠ name) :
    (insertMember name value members).filter keeps = members.filter keeps := by
  induction members with
  | nil => simp [insertMember, dropped]
  | cons first rest ih =>
      obtain ⟨other, others⟩ := List.forall_mem_cons.mp new
      unfold insertMember
      split
      · simp [List.filter_cons, dropped]
      · rw [if_neg (Ne.symm other)]
        simp [List.filter_cons, ih others]

theorem filter_insertMember_of_others (kept : keeps (name, value) = true)
    (others : ∀ member ∈ members, keeps member = false) :
    (insertMember name value members).filter keeps = [(name, value)] := by
  induction members with
  | nil => simp [insertMember, kept]
  | cons first rest ih =>
      obtain ⟨other, behind⟩ := List.forall_mem_cons.mp others
      have none : rest.filter keeps = [] := by simpa using behind
      unfold insertMember
      split
      · simp [kept, other, none]
      split
      · simp [kept, none]
      · simp [other, ih behind]

end Json

namespace Settings

variable {bag : Bag} {list : List (String × String)} {command keys : String}

def spelled (command : String) (shortcut : String × String) : Bool :=
  Text.lower shortcut.1 = Text.lower command

theorem same_eq_spelled (shortcut : String × String) (command : String) :
    Key.same shortcut.1 command = spelled command shortcut := by
  rw [Bool.eq_iff_iff, Key.same, Text.sameButCase_iff]
  simp [spelled]

theorem shortcuts_ordered (bag : Bag) : MembersOrdered (shortcuts bag) :=
  orderMembers_ordered _

theorem bound_eq (list : List (String × String)) (command keys : String) :
    bound list command keys =
      if keys = "" then list.filter (!spelled command ·)
      else insertMember command keys (list.filter (!spelled command ·)) := by
  simp only [bound, same_eq_spelled, String.isEmpty_iff]

theorem bound_ordered (ordered : MembersOrdered list) (command keys : String) :
    MembersOrdered (bound list command keys) := by
  have others : MembersOrdered (list.filter (!spelled command ·)) := ordered.filter _
  rw [bound_eq]
  split
  · exact others
  · exact insertMember_ordered others

theorem filter_spelled_bound (list : List (String × String)) (command keys : String) :
    (bound list command keys).filter (spelled command) =
      if keys = "" then [] else [(command, keys)] := by
  have others : ∀ member ∈ list.filter (!spelled command ·), spelled command member = false := by
    intro member inside
    simpa using (List.mem_filter.mp inside).2
  rw [bound_eq]
  split
  · simp
  · apply filter_insertMember_of_others
    · simp [spelled]
    · exact others

theorem filter_other_bound (list : List (String × String)) (command keys : String) :
    (bound list command keys).filter (!spelled command ·) = list.filter (!spelled command ·) := by
  rw [bound_eq]
  split
  · simp
  · rw [filter_insertMember_of_dropped]
    · simp
    · simp [spelled]
    · intro member inside same
      have other := (List.mem_filter.mp inside).2
      simp [spelled, same] at other

theorem bound_bound (list : List (String × String)) (command keys : String) :
    bound (bound list command keys) command keys = bound list command keys := by
  rw [bound_eq (bound list command keys), filter_other_bound, ← bound_eq]

theorem stands_shortcutsValue (ordered : MembersOrdered list) :
    Stands (Decoder.mapping Decoder.text) 1 (shortcutsValue list) list := by
  have members : shortcutsValue list =
      .object (list.map fun member => (member.1, .string member.2)) := by
    rw [shortcutsValue, Json.ofMembers, orderMembers_map, orderMembers_of_ordered ordered]
  have texts : ∀ member ∈ list,
      Stands Decoder.text 0 (.string member.2) (id member.2) :=
    fun member _ => ⟨trivial, trivial, Nat.le_refl 0, rfl⟩
  have stands := stands_mapping texts
  rw [← members] at stands
  simpa using stands

theorem shortcuts_of_value? (ordered : MembersOrdered list)
    (stored : bag.value? "shortcuts" = some (shortcutsValue list)) : shortcuts bag = list := by
  have read := convert?_of_taken (stands_shortcutsValue ordered).taken
  rw [shortcuts, Bag.get?, stored, Option.bind_some, read, Option.getD_some,
    orderMembers_of_ordered ordered]

theorem setShortcut_bag (document : Document) (disk : Disk) (command keys : String) :
    (setShortcut document disk command keys).1.bag =
      (document.bag.set "shortcuts"
        (shortcutsValue (bound (shortcuts document.bag) command keys))).1 := by
  rw [setShortcut_eq]
  split
  · exact (Document.setAndSave_bag document disk _ _).1
  · rename_i unchanged
    exact (Document.bag_set_unchanged (Bool.eq_false_iff.mpr unchanged)).symm

theorem value?_setShortcut (document : Document) (disk : Disk) (command keys : String) :
    (setShortcut document disk command keys).1.bag.value? "shortcuts" =
      some (shortcutsValue (bound (shortcuts document.bag) command keys)) := by
  rw [setShortcut_bag]
  apply Bag.value?_set (by decide)
  exact (stands_shortcutsValue (bound_ordered (shortcuts_ordered document.bag) command keys)).whole

theorem shortcuts_setShortcut (document : Document) (disk : Disk) (command keys : String) :
    shortcuts (setShortcut document disk command keys).1.bag =
      bound (shortcuts document.bag) command keys :=
  shortcuts_of_value? (bound_ordered (shortcuts_ordered document.bag) command keys)
    (value?_setShortcut document disk command keys)

theorem set_unchanged_iff {name : String} {value : Json} (nonempty : name ≠ "")
    (whole : value.NoDoubles) : (bag.set name value).2 = false ↔ bag.value? name = some value := by
  constructor
  · intro unchanged
    rw [← Document.bag_set_unchanged unchanged]
    exact Bag.value?_set nonempty whole
  · intro there
    simp [Bag.set, nonempty, there, same_refl]

theorem setShortcut_unchanged (there : document.bag.value? "shortcuts" =
      some (shortcutsValue (bound (shortcuts document.bag) command keys))) (disk : Disk) :
    setShortcut document disk command keys = (document, disk, false) := by
  have ordered := bound_ordered (shortcuts_ordered document.bag) command keys
  rw [setShortcut_eq, if_neg]
  rw [Bool.not_eq_true]
  exact (set_unchanged_iff (by decide) (stands_shortcutsValue ordered).whole).mpr there

theorem find?_setShortcut (document : Document) (disk : Disk) (command keys : String)
    {name : String} (different : Text.lower name ≠ Text.lower "shortcuts") :
    (setShortcut document disk command keys).1.bag.find? name = document.bag.find? name := by
  rw [setShortcut_bag]
  exact Bag.findKey?_set_of_ne different

/-- A command has exactly the keys that it is given, in the spelling that it is given in, or none.
The other commands keep theirs, and the other settings their values. The answer is no exactly if the
document held these shortcuts already, and then nothing is changed or saved; so it is when the
command is bound to the same keys again. -/
theorem setShortcut_binds (document : Document) (disk : Disk) (command keys : String) :
    let (after, written, changed) := setShortcut document disk command keys
    (shortcuts after.bag).filter (fun shortcut => Text.lower shortcut.1 = Text.lower command) =
        (if keys = "" then [] else [(command, keys)]) ∧
      (shortcuts after.bag).filter (fun shortcut => Text.lower shortcut.1 ≠ Text.lower command) =
        (shortcuts document.bag).filter
          (fun shortcut => Text.lower shortcut.1 ≠ Text.lower command) ∧
      (changed = false ↔
        document.bag.value? "shortcuts" = some (shortcutsValue (shortcuts after.bag))) ∧
      (changed = false → after = document ∧ written = disk) ∧
      (∀ later, setShortcut after later command keys = (after, later, false)) ∧
      ∀ name, Text.lower name ≠ Text.lower "shortcuts" →
        after.bag.find? name = document.bag.find? name ∧
          schema.get? after.bag name = schema.get? document.bag name := by
  have list := shortcuts_setShortcut document disk command keys
  have stored := value?_setShortcut document disk command keys
  have others := fun name => @find?_setShortcut document disk command keys name
  have ordered := bound_ordered (shortcuts_ordered document.bag) command keys
  have answer : (setShortcut document disk command keys).2.2 = false ↔
      document.bag.value? "shortcuts" =
        some (shortcutsValue (bound (shortcuts document.bag) command keys)) := by
    rw [← set_unchanged_iff (by decide) (stands_shortcutsValue ordered).whole, setShortcut_eq,
      Operation.shortcutsWith]
    split <;> simp_all
  have silent (no : (setShortcut document disk command keys).2.2 = false) :
      setShortcut document disk command keys = (document, disk, false) :=
    setShortcut_unchanged (answer.mp no) disk
  generalize setShortcut document disk command keys = outcome at *
  obtain ⟨after, written, changed⟩ := outcome
  simp only at list stored others answer silent ⊢
  refine ⟨?_, ?_, ?_, fun no => ?_, fun later => ?_, fun name different => ⟨?_, ?_⟩⟩
  · rw [list]
    exact filter_spelled_bound (shortcuts document.bag) command keys
  · rw [list]
    simpa [spelled] using filter_other_bound (shortcuts document.bag) command keys
  · rw [list]
    exact answer
  · cases silent no
    exact ⟨rfl, rfl⟩
  · apply setShortcut_unchanged
    rw [list, bound_bound]
    exact stored
  · exact others name different
  · exact Schema.get?_congr (congrArg (Option.map Property.value) (others name different))

end Settings
end Waymark
