import Waymark.Proofs.Bag
/-!
# Bags that are built step by step

However a bag came about, it is what is read from its document, as long as its values are ones that
documents keep: no doubles, whole numbers of 64 bits, and no more nesting than a document has room
for.
-/

namespace Waymark.Bag

/-- The bags that setting, removing, replacing and reading lead to. A value that is set has the
members of its objects in order, as every value has that a program can make. -/
inductive Built : Bag → Prop
  | empty : Built empty
  | set {bag : Bag} (built : Built bag) (name : String) {value : Json}
      (canonical : value.Canonical) : Built (bag.set name value).1
  | remove {bag : Bag} (built : Built bag) (name : String) : Built (bag.remove name).1
  | replace {bag other : Bag} (built : Built bag) (made : Built other) :
      Built (bag.replaceWith other).1
  | read {bytes : ByteArray} {bag : Bag} (read : ofBytes bytes = .ok bag) : Built bag

def Plain (bag : Bag) : Prop :=
  ∀ property ∈ bag.properties, property.value.NoDoubles ∧ property.value.Fits ∧
    property.value.depth ≤ Json.maximumDepth - 1

def ReadsBack (bag : Bag) : Prop :=
  ofBytes bag.toJson.indented.toUTF8 = .ok bag ∧ ofBytes bag.toJson.compact.toUTF8 = .ok bag

variable {bag : Bag}

theorem Built.canonical (built : Built bag) :
    ∀ property ∈ bag.properties, property.value.Canonical := by
  induction built with
  | empty => exact fun property inside => absurd inside List.not_mem_nil
  | set _ name given ih => exact forall_value_set Json.Canonical ih name given
  | remove _ name ih => exact fun property inside => ih property (List.mem_filter.mp inside).1
  | replace _ _ _ ih => exact ih
  | read read => exact fun property inside => (held_of_ofBytes read property inside).canonical

theorem readsBack_of_held (held : bag.Held) (whole : bag.NoDoubles) : bag.ReadsBack :=
  ⟨ofBytes_write Json.Spacing.blank_indented held whole,
    ofBytes_write Json.Spacing.blank_compact held whole⟩

/-- A plain bag reads back however it was built, and so does whatever was read without doubles. -/
theorem built_readsBack :
    (∀ bag : Bag, bag.Built → bag.Plain → bag.ReadsBack) ∧
      ∀ (bytes : ByteArray) (bag : Bag), ofBytes bytes = .ok bag → bag.NoDoubles →
        bag.ReadsBack := by
  constructor
  · intro bag built plain
    have held : bag.Held := fun property inside => {
      fits := (plain property inside).2.1
      canonical := built.canonical property inside
      shallow := (plain property inside).2.2 }
    exact readsBack_of_held held fun property inside => (plain property inside).1
  · intro bytes bag read whole
    exact readsBack_of_held (held_of_ofBytes read) whole

def twoSettings : Bag :=
  (((empty.set "Theme" (.string "dark")).1.set "theme" (.string "light")).1.set "levels"
    (.array [.integer (-1), .null, .object [("top", .boolean true)]])).1

theorem twoSettings_built : twoSettings.Built := by
  refine ((Built.empty.set "Theme" ?_).set "theme" ?_).set "levels" ?_
  · trivial
  · trivial
  · simp [Json.Canonical, Json.CanonicalItems, Json.CanonicalMembers, Json.MembersOrdered,
      Json.integer]

theorem twoSettings_plain : twoSettings.Plain := by
  intro property inside
  rcases mem_set inside with old | ⟨-, list⟩
  · rcases mem_set old with older | ⟨-, light⟩
    · rcases mem_set older with none | ⟨-, dark⟩
      · exact absurd none List.not_mem_nil
      · exact dark ▸ ⟨trivial, trivial, Nat.zero_le _⟩
    · exact light ▸ ⟨trivial, trivial, Nat.zero_le _⟩
  · rw [list]
    refine ⟨⟨trivial, trivial, ⟨trivial, trivial⟩, trivial⟩, ?_, by decide⟩
    exact ⟨⟨by decide, by decide⟩, trivial, ⟨trivial, trivial⟩, trivial⟩

theorem built_readsBack_twoSettings :
    twoSettings.ReadsBack ∧
      ofBytes twoSettings.toJson.indented.toUTF8 = .ok twoSettings ∧ twoSettings.ReadsBack := by
  have written := built_readsBack.1 twoSettings twoSettings_built twoSettings_plain
  have whole : twoSettings.NoDoubles := fun property inside => (twoSettings_plain property inside).1
  exact ⟨written, written.1, built_readsBack.2 _ twoSettings written.1 whole⟩

end Waymark.Bag
