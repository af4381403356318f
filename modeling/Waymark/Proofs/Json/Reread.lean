import Waymark.Proofs.Json.Double
import Waymark.Proofs.Json.Shape
/-!
# Values that are written and read

What comes back from a document is the value that was written, except that a double comes back as
the number that its text stands for. Names, order and nesting stay as they are.
-/

namespace Waymark

namespace Number

def reread : Number → Number
  | .integer value => .integer value
  | .double value => value.numeral.value?.getD (.double value)

theorem reread_zero (negative : Bool) :
    reread (.double (.zero negative)) = .double (.zero negative) := by
  cases negative <;> decide +kernel

theorem value?_numeral (value : Double) :
    value.numeral.value? = some (reread (.double value)) := by
  obtain ⟨number, found⟩ := value.exists_value?_numeral
  rw [reread, found]
  rfl

theorem reread_of_isWhole {number : Number} (whole : number.IsWhole) : number.reread = number := by
  cases number with
  | integer value => rfl
  | double value => exact whole.elim

end Number

namespace Json

mutual

def reread : Json → Json
  | .number value => .number value.reread
  | .array items => .array (rereadItems items)
  | .object members => .object (rereadMembers members)
  | value => value

def rereadItems : List Json → List Json
  | [] => []
  | item :: items => reread item :: rereadItems items

def rereadMembers : List (String × Json) → List (String × Json)
  | [] => []
  | (name, value) :: members => (name, reread value) :: rereadMembers members

end

theorem rereadMembers_eq (members : List (String × Json)) :
    rereadMembers members = members.map fun member => (member.1, member.2.reread) := by
  induction members with
  | nil => rfl
  | cons first rest ih => simp [rereadMembers, ih]

mutual

theorem reread_of_noDoubles {value : Json} (whole : value.NoDoubles) : value.reread = value := by
  match value with
  | .null | .boolean _ | .string _ => rfl
  | .number value => rw [reread, Number.reread_of_isWhole whole]
  | .array items => rw [reread, rereadItems_of_noDoubles whole]
  | .object members => rw [reread, rereadMembers_of_noDoubles whole]

theorem rereadItems_of_noDoubles {items : List Json}
    (whole : EveryNumberItems Number.IsWhole items) : rereadItems items = items := by
  match items with
  | [] => rfl
  | item :: items =>
      rw [rereadItems, reread_of_noDoubles whole.1, rereadItems_of_noDoubles whole.2]

theorem rereadMembers_of_noDoubles {members : List (String × Json)}
    (whole : EveryNumberMembers Number.IsWhole members) : rereadMembers members = members := by
  match members with
  | [] => rfl
  | (name, value) :: members =>
      rw [rereadMembers, reread_of_noDoubles whole.1, rereadMembers_of_noDoubles whole.2]

end

mutual

@[simp] theorem depth_reread (value : Json) : value.reread.depth = value.depth := by
  match value with
  | .null | .boolean _ | .number _ | .string _ => rfl
  | .array items => simp [reread, depth, depthItems_reread items]
  | .object members => simp [reread, depth, depthMembers_reread members]

theorem depthItems_reread (items : List Json) :
    depthItems (rereadItems items) = depthItems items := by
  match items with
  | [] => rfl
  | item :: items => simp [rereadItems, depthItems, depth_reread item, depthItems_reread items]

theorem depthMembers_reread (members : List (String × Json)) :
    depthMembers (rereadMembers members) = depthMembers members := by
  match members with
  | [] => rfl
  | (name, value) :: members =>
      simp [rereadMembers, depthMembers, depth_reread value, depthMembers_reread members]

end

theorem membersOrdered_reread {members : List (String × Json)} (ordered : MembersOrdered members) :
    MembersOrdered (rereadMembers members) := by
  rw [rereadMembers_eq]
  exact List.pairwise_map.mpr ordered

mutual

theorem canonical_reread (value : Json) (canonical : value.Canonical) : value.reread.Canonical := by
  match value with
  | .null | .boolean _ | .number _ | .string _ => trivial
  | .array items => exact canonicalItems_reread items canonical
  | .object members =>
      exact ⟨membersOrdered_reread canonical.1, canonicalMembers_reread members canonical.2⟩

theorem canonicalItems_reread (items : List Json) (canonical : CanonicalItems items) :
    CanonicalItems (rereadItems items) := by
  match items with
  | [] => trivial
  | item :: items =>
      exact ⟨canonical_reread item canonical.1, canonicalItems_reread items canonical.2⟩

theorem canonicalMembers_reread (members : List (String × Json))
    (canonical : CanonicalMembers members) : CanonicalMembers (rereadMembers members) := by
  match members with
  | [] => trivial
  | (name, value) :: members =>
      exact ⟨canonical_reread value canonical.1, canonicalMembers_reread members canonical.2⟩

end

end Json
end Waymark
